import Bindlang.BindingSet
import Bindlang.Proofs.Parser.FirstError
import Bindlang.Proofs.Parser.NestingLimit

namespace Bindlang

/-- The first binding, in order, whose name an earlier one has. -/
def IsFirstRepeated (b : Binding) (raw : List Binding) : Prop :=
  ∃ pre post, raw = pre ++ b :: post ∧ (pre.map Binding.name).Nodup ∧
    b.name ∈ pre.map Binding.name

namespace Parser

open Grammar

variable {kept raw : List Binding} {b : Binding} {hole : Hole} {value : Expression} {t : Token}
  {s s' : State} {maxDepth : Nat} {tokens ts : List Token} {e : ParseError}

theorem add_of_repeated (repeated : b.name ∈ kept.map Binding.name) :
    add .reject kept b = .error (.duplicateName b.name b.position) := by
  obtain ⟨other, member, same⟩ := List.mem_map.1 repeated
  have present : Keyed.contains Binding.name b.name kept = true :=
    List.any_eq_true.2 ⟨other, member, decide_eq_true same⟩
  rw [add, if_pos ⟨rfl, present⟩]

theorem foldlM_add_of_repeated (distinct : (kept.map Binding.name).Nodup)
    (repeated : ¬((kept ++ raw).map Binding.name).Nodup) :
    ∃ pre b post, raw = pre ++ b :: post ∧ ((kept ++ pre).map Binding.name).Nodup ∧
      b.name ∈ (kept ++ pre).map Binding.name ∧
      raw.foldlM (add .reject) kept = .error (.duplicateName b.name b.position) := by
  induction raw generalizing kept with
  | nil =>
    rw [List.append_nil] at repeated
    exact absurd distinct repeated
  | cons b raw ih =>
    rw [List.foldlM_cons]
    by_cases here : b.name ∈ kept.map Binding.name
    · refine ⟨[], b, raw, rfl, ?_, ?_, ?_⟩
      · rwa [List.append_nil]
      · rwa [List.append_nil]
      · rw [add_of_repeated here, Except.error_bind]
    · have added := add_of_fresh .reject here
      rw [List.append_cons] at repeated
      obtain ⟨pre, c, post, rfl, before, again, refused⟩ :=
        ih (nodup_of_add distinct added) repeated
      rw [← List.append_cons] at before again
      refine ⟨b :: pre, c, post, rfl, before, again, ?_⟩
      rw [added, Except.ok_bind, refused]

theorem isFirstRepeated_of_foldlM (repeated : ¬(raw.map Binding.name).Nodup) :
    ∃ b, IsFirstRepeated b raw ∧
      raw.foldlM (add .reject) [] = .error (.duplicateName b.name b.position) := by
  have nothing : (([] : List Binding).map Binding.name).Nodup := List.nodup_nil
  obtain ⟨pre, b, post, split, distinct, again, refused⟩ := foldlM_add_of_repeated nothing repeated
  exact ⟨b, ⟨pre, post, split, distinct, again⟩, refused⟩

theorem fill_policies (kept : List Binding) (hole : Hole) (value : Expression) :
    fill .reject kept hole value = fill .lastWins kept hole value ∨
      ∃ name p bindings, fill .reject kept hole value = .error (.duplicateName name p) ∧
        fill .lastWins kept hole value = .ok (bindings, .binding) := by
  obtain ⟨name, position, frames⟩ := hole
  cases frames with
  | cons frame frames => cases frame <;> exact .inl rfl
  | nil =>
    simp only [fill]
    by_cases here : name ∈ kept.map Binding.name
    · right
      rw [add_of_repeated here, add_lastWins]
      exact ⟨name, position, _, rfl, rfl⟩
    · left
      rw [add_of_fresh _ here, add_of_fresh _ here]

/-- What the strict policy and the lax one make of the token behind the state `s`. -/
inductive Compared (s : State) (strict lax : Except ParseError State) : Prop
  | same (equal : strict = lax)
  | refused {name : String} {p : Position} {bindings : List Binding}
      (refused : strict = .error (.duplicateName name p))
      (taken : lax = .ok (behindBinding bindings))
  | refusedBefore {name : String} {p : Position} {bindings : List Binding}
      (refused : strict = .error (.duplicateName name p))
      (ended : finish .reject s = .error (.duplicateName name p))
      (taken : finish .lastWins s = .ok bindings)

theorem complete_policies (s : State) (kept : List Binding) (hole : Hole) (value : Expression) :
    Compared s (complete .reject kept hole value) (complete .lastWins kept hole value) := by
  unfold complete
  rcases fill_policies kept hole value with same | ⟨name, p, bindings, refused, taken⟩
  · rw [same]
    exact .same rfl
  · rw [refused, taken]
    exact .refused rfl rfl

theorem beginValue_policies (s : State) (kept : List Binding) (hole : Hole) (t : Token) :
    Compared s (beginValue ⟨.reject, maxDepth⟩ kept hole t)
      (beginValue ⟨.lastWins, maxDepth⟩ kept hole t) := by
  unfold beginValue
  split
  · exact complete_policies s kept hole _
  · split
    · exact complete_policies s kept hole _
    · exact .same rfl
  · exact complete_policies s kept hole _
  · exact complete_policies s kept hole _
  · exact complete_policies s kept hole _
  · exact .same rfl
  · exact .same rfl
  · exact .same rfl
  · exact .same rfl

theorem separate_policies (s : State) (kept : List Binding) (t : Token) (separator : Separator) :
    Compared s (separate .reject kept t separator) (separate .lastWins kept t separator) := by
  cases separator with
  | binding => exact .same rfl
  | element hole items | entry hole entries =>
    simp only [separate]
    split
    · exact .same rfl
    · split
      · exact complete_policies s kept hole _
      · exact .same rfl

theorem leavePath_policies {path : List Segment} {s : State}
    (ends : ∀ policy, finish policy s = endPath policy kept hole path) :
    Compared s (leavePath .reject kept hole path t) (leavePath .lastWins kept hole path t) := by
  rcases fill_policies kept hole (.path path.reverse) with
    same | ⟨name, p, bindings, refused, taken⟩
  · unfold leavePath
    rw [same]
    cases fill .lastWins kept hole (.path path.reverse) with
    | error e => exact .same rfl
    | ok filled => exact separate_policies s filled.1 t filled.2
  · have strict : leavePath .reject kept hole path t = .error (.duplicateName name p) := by
      rw [leavePath, refused]
      rfl
    have ended : finish .reject s = .error (.duplicateName name p) := by
      rw [ends, endPath, refused]
      rfl
    have lax : finish .lastWins s = .ok bindings := by
      rw [ends, endPath, taken]
      rfl
    exact .refusedBefore strict ended lax

theorem step_policies (maxDepth : Nat) (s : State) (t : Token) :
    Compared s (step ⟨.reject, maxDepth⟩ s t) (step ⟨.lastWins, maxDepth⟩ s t) := by
  obtain ⟨kept, awaiting⟩ := s
  cases awaiting with
  | bindingName | bindingColon | entryColon | callEnd | memberName => exact .same rfl
  | nextKey => exact .same rfl
  | value hole => exact beginValue_policies _ kept hole t
  | firstElement hole =>
    simp only [step]
    split
    · exact complete_policies _ kept hole _
    · exact beginValue_policies _ kept _ t
  | firstKey hole =>
    simp only [step]
    split
    · exact complete_policies _ kept hole _
    · exact .same rfl
  | nameEnd hole path name =>
    simp only [step]
    split
    · exact .same rfl
    · split
      · exact .same rfl
      · exact leavePath_policies fun _ => rfl
  | pathEnd hole path =>
    simp only [step]
    split
    · exact .same rfl
    · exact leavePath_policies fun _ => rfl
  | separator separator => exact separate_policies _ kept t separator

theorem endPath_policies (kept : List Binding) (hole : Hole) (path : List Segment) :
    endPath .reject kept hole path = endPath .lastWins kept hole path ∨
      ∃ name p bindings, endPath .reject kept hole path = .error (.duplicateName name p) ∧
        endPath .lastWins kept hole path = .ok bindings := by
  unfold endPath
  rcases fill_policies kept hole (.path path.reverse) with
    same | ⟨name, p, bindings, refused, taken⟩
  · rw [same]
    exact .inl rfl
  · rw [refused, taken]
    exact .inr ⟨name, p, bindings, rfl, rfl⟩

theorem finish_policies (s : State) :
    finish .reject s = finish .lastWins s ∨
      ∃ name p bindings, finish .reject s = .error (.duplicateName name p) ∧
        finish .lastWins s = .ok bindings := by
  obtain ⟨kept, awaiting⟩ := s
  cases awaiting with
  | nameEnd hole path name => exact endPath_policies kept hole _
  | pathEnd hole path => exact endPath_policies kept hole path
  | _ => exact .inl rfl

theorem run_lastWins_of_reject (ran : run ⟨.reject, maxDepth⟩ s ts = .ok s') :
    run ⟨.lastWins, maxDepth⟩ s ts = .ok s' := by
  induction ts generalizing s with
  | nil => exact ran
  | cons t ts ih =>
    rw [run_cons] at ran ⊢
    obtain ⟨s₁, took, ran⟩ := Except.bind_eq_ok_iff.1 ran
    cases step_policies maxDepth s t with
    | same equal => rw [← equal, took, Except.ok_bind, ih ran]
    | refused refused => simp [refused] at took
    | refusedBefore refused => simp [refused] at took

theorem parse_eq_finish {rules : Rules} (filled : ts ≠ []) (ran : run rules start ts = .ok s) :
    parse rules ts = finish rules.duplicates s := by
  rw [parse, if_neg filled, ran, Except.ok_bind]

theorem parse_eq_error {rules : Rules} (filled : ts ≠ []) (ran : run rules start ts = .error e) :
    parse rules ts = .error e := by
  rw [parse, if_neg filled, ran, Except.error_bind]

/-- The lax policy takes `pre`; the strict one refuses it, and `tokens` with the same error. -/
structure RefusedBehind (maxDepth : Nat) (pre tokens : List Token) (e : ParseError) : Prop where
  ran : ∃ s, run ⟨.lastWins, maxDepth⟩ start pre = .ok s
  taken : ∃ bindings, parse ⟨.lastWins, maxDepth⟩ pre = .ok bindings
  refused : parse ⟨.reject, maxDepth⟩ pre = .error e
  refusedAll : parse ⟨.reject, maxDepth⟩ tokens = .error e

theorem refusedBehind_of_run {bindings : List Binding} (filled : ts ≠ [])
    (ran : run ⟨.lastWins, maxDepth⟩ start ts = .ok s) (taken : finish .lastWins s = .ok bindings)
    (refused : parse ⟨.reject, maxDepth⟩ ts = .error e)
    (refusedAll : parse ⟨.reject, maxDepth⟩ tokens = .error e) :
    RefusedBehind maxDepth ts tokens e where
  ran := ⟨s, ran⟩
  taken := ⟨bindings, (parse_eq_finish filled ran).trans taken⟩
  refused := refused
  refusedAll := refusedAll

theorem parse_policies (maxDepth : Nat) (tokens : List Token) :
    parse ⟨.reject, maxDepth⟩ tokens = parse ⟨.lastWins, maxDepth⟩ tokens ∨
      ∃ pre post e, tokens = pre ++ post ∧ RefusedBehind maxDepth pre tokens e := by
  by_cases filled : tokens = []
  · rw [filled]
    exact .inl rfl
  · cases ran : run ⟨.reject, maxDepth⟩ start tokens with
    | ok s =>
      have ranLax := run_lastWins_of_reject ran
      have strict := parse_eq_finish filled ran
      rcases finish_policies s with same | ⟨name, p, bindings, refused, taken⟩
      · left
        rw [strict, parse_eq_finish filled ranLax, same]
      · right
        have refusedAll := strict.trans refused
        have refusedHere := refusedBehind_of_run filled ranLax taken refusedAll refusedAll
        exact ⟨tokens, [], _, by simp, refusedHere⟩
    | error e =>
      -- The token that is refused may be the last of its binding, or the first behind a path.
      obtain ⟨pre, t, post, s, rfl, ranPre, failed⟩ := exists_step_of_run ran
      have ranLax := run_lastWins_of_reject ranPre
      have strict := parse_eq_error filled ran
      cases step_policies maxDepth s t with
      | same equal =>
        left
        have failedLax : run ⟨.lastWins, maxDepth⟩ start (pre ++ t :: post) = .error e := by
          rw [run_append, ranLax, Except.ok_bind, run_cons, ← equal, failed, Except.error_bind]
        rw [strict, parse_eq_error filled failedLax]
      | @refused _ _ bindings _ taken =>
        right
        have filledPre : pre ++ [t] ≠ [] := by simp
        have ranPreLax : run ⟨.lastWins, maxDepth⟩ start (pre ++ [t]) =
            .ok (behindBinding bindings) := by
          rw [run_append, ranLax, Except.ok_bind, run_singleton, taken]
        have refusedPre : run ⟨.reject, maxDepth⟩ start (pre ++ [t]) = .error e := by
          rw [run_append, ranPre, Except.ok_bind, run_singleton, failed]
        exact ⟨pre ++ [t], post, e, by simp,
          refusedBehind_of_run filledPre ranPreLax rfl (parse_eq_error filledPre refusedPre) strict⟩
      | refusedBefore refused ended taken =>
        right
        have filledPre : pre ≠ [] := by
          rintro rfl
          cases ranPre
          cases ended
        rw [failed] at refused
        cases refused
        have refusedPre := (parse_eq_finish filledPre ranPre).trans ended
        exact ⟨pre, t :: post, _, rfl,
          refusedBehind_of_run filledPre ranLax taken refusedPre strict⟩

theorem length_le_of_position {pre post : List Token}
    (distinct : ((pre ++ post).map Token.position).Nodup)
    (ran : run ⟨.lastWins, maxDepth⟩ start pre = .ok s)
    (failed : parse ⟨.lastWins, maxDepth⟩ (pre ++ post) = .error e) :
    ∀ i t, (pre ++ post)[i]? = some t → e.position? = some t.position → pre.length ≤ i := by
  intro i t here same
  unfold parse at failed
  split at failed
  · cases failed
  · rw [run_append, ran, Except.ok_bind] at failed
    rcases Except.bind_eq_error_iff.1 failed with failed | ⟨s', _, failed⟩
    · obtain ⟨mid, u, rest, s', rfl, _, failed⟩ := exists_step_of_run failed
      have shared : u.position = t.position := by
        simpa [(isAbout_of_step failed).position] using same
      -- A token that is taken would stand where the refused one stands.
      by_contra before
      rw [List.getElem?_append_left (by omega)] at here
      rw [List.map_append, List.nodup_append] at distinct
      apply distinct.2.2 t.position (List.mem_map_of_mem (List.mem_of_getElem? here)) u.position _
      · exact shared.symm
      · exact List.mem_map_of_mem (List.mem_append_right mid List.mem_cons_self)
    · obtain ⟨expected, rfl⟩ := unexpectedEnd_of_finish failed
      cases same

theorem parse_eq_foldlM (policy : DuplicatePolicy) {bindings : List Binding}
    (accepted : parse ⟨.lastWins, maxDepth⟩ tokens = .ok bindings)
    (isBindings : IsBindings tokens raw) :
    parse ⟨policy, maxDepth⟩ tokens = raw.foldlM (add policy) [] := by
  have low : Token.peak tokens ≤ maxDepth := peak_le_of_parse accepted
  exact parse_of_isBindings isBindings (isBindings.peak_le_iff.1 low)

theorem strict_of_accepted {bindings : List Binding}
    (accepted : parse ⟨.lastWins, maxDepth⟩ tokens = .ok bindings)
    (isBindings : IsBindings tokens raw) :
    ((raw.map Binding.name).Nodup → parse ⟨.reject, maxDepth⟩ tokens = .ok bindings) ∧
      (¬(raw.map Binding.name).Nodup → ∃ b, IsFirstRepeated b raw ∧
        parse ⟨.reject, maxDepth⟩ tokens = .error (.duplicateName b.name b.position)) := by
  have lax := parse_eq_foldlM .lastWins accepted isBindings
  have strict := parse_eq_foldlM .reject accepted isBindings
  constructor
  · intro distinct
    have added (policy : DuplicatePolicy) : raw.foldlM (add policy) [] = .ok raw :=
      foldlM_add_of_distinct policy distinct
    rw [strict, added, ← added .lastWins, ← lax, accepted]
  · intro repeated
    rw [strict]
    exact isFirstRepeated_of_foldlM repeated

theorem RefusedBehind.exists_repeated {pre : List Token}
    (refused : RefusedBehind maxDepth pre tokens e) :
    ∃ raw b, IsBindings pre raw ∧ IsFirstRepeated b raw ∧ e = .duplicateName b.name b.position := by
  obtain ⟨bindings, taken⟩ := refused.taken
  obtain ⟨raw, isBindings, _⟩ := parse_eq_ok_iff.1 taken
  obtain ⟨ifDistinct, ifRepeated⟩ := strict_of_accepted taken isBindings
  rw [refused.refused] at ifDistinct ifRepeated
  by_cases distinct : (raw.map Binding.name).Nodup
  · cases ifDistinct distinct
  · obtain ⟨b, first, same⟩ := ifRepeated distinct
    exact ⟨raw, b, isBindings, first, Except.error.inj same⟩

end Parser

theorem nodup_of_readBindings {rules : Rules} {text : String} {bindings : List Binding}
    (accepted : readBindings rules text = .ok bindings) : (bindings.map Binding.name).Nodup := by
  obtain ⟨tokens, _, parsed⟩ := exists_tokens_of_readBindings accepted
  exact Parser.nodup_of_parse parsed

theorem BindingSet.entries_ofBindings {bindings : List Binding}
    (distinct : (bindings.map Binding.name).Nodup) (scope : Scope) :
    (ofBindings bindings scope).accessors.entries =
      bindings.map fun b => (b.name, Accessor.expression b.value scope) := by
  refine Keyed.ofList_of_distinct ?_
  rwa [List.map_map]

theorem BindingSet.names_ofBindings {bindings : List Binding}
    (distinct : (bindings.map Binding.name).Nodup) (scope : Scope) :
    (ofBindings bindings scope).names = bindings.map Binding.name := by
  rw [names, Fields.names, entries_ofBindings distinct, List.map_map]
  rfl

theorem BindingSet.get_ofBindings {bindings : List Binding} {b : Binding}
    (distinct : (bindings.map Binding.name).Nodup) (member : b ∈ bindings) (scope : Scope) :
    (ofBindings bindings scope).get? b.name = some (.expression b.value scope) := by
  have entries := entries_ofBindings distinct scope
  have inside : (b.name, Accessor.expression b.value scope) ∈
      (ofBindings bindings scope).accessors.entries := by
    rw [entries]
    exact List.mem_map_of_mem member
  have found := (Keyed.find_key_iff (ofBindings bindings scope).accessors.distinct).2 inside
  exact congrArg (Option.map Prod.snd) found

theorem Options.bind_of_bindings {options : Options} {text : String} {bindings : List Binding}
    (accepted : options.bindings text = .ok bindings) (scope : Scope) :
    options.bind text scope = .ok (.ofBindings bindings scope) := by
  rw [bind, accepted]
  rfl

theorem Options.exists_bind {options : Options} {text : String} {bindings : List Binding}
    (accepted : options.bindings text = .ok bindings) (scope : Scope) :
    ∃ set, options.bind text scope = .ok set ∧ set.names = bindings.map Binding.name :=
  ⟨_, bind_of_bindings accepted scope,
    BindingSet.names_ofBindings (nodup_of_readBindings accepted) scope⟩

namespace Parser

open Grammar

/-- The policies differ only where a name comes twice, and agree up to there. -/
theorem parse_under_policies (maxDepth : Nat) {tokens : List Token}
    (distinct : (tokens.map Token.position).Nodup) :
    (∀ bindings, parse ⟨.lastWins, maxDepth⟩ tokens = .ok bindings ∨
      parse ⟨.reject, maxDepth⟩ tokens = .ok bindings → (bindings.map Binding.name).Nodup) ∧
    (∀ bindings, parse ⟨.reject, maxDepth⟩ tokens = .ok bindings →
      parse ⟨.lastWins, maxDepth⟩ tokens = .ok bindings) ∧
    (∀ e, parse ⟨.reject, maxDepth⟩ tokens = .error e → (∀ name p, e ≠ .duplicateName name p) →
      parse ⟨.lastWins, maxDepth⟩ tokens = .error e) ∧
    (∀ bindings, parse ⟨.lastWins, maxDepth⟩ tokens = .ok bindings →
      (∃ raw, IsBindings tokens raw) ∧ ∀ raw, IsBindings tokens raw →
        ((raw.map Binding.name).Nodup → parse ⟨.reject, maxDepth⟩ tokens = .ok bindings) ∧
        (¬(raw.map Binding.name).Nodup → ∃ b, IsFirstRepeated b raw ∧
          parse ⟨.reject, maxDepth⟩ tokens = .error (.duplicateName b.name b.position))) ∧
    (∀ e, parse ⟨.lastWins, maxDepth⟩ tokens = .error e →
      parse ⟨.reject, maxDepth⟩ tokens = .error e ∨
      ∃ k raw b, IsBindings (tokens.take k) raw ∧ IsFirstRepeated b raw ∧
        parse ⟨.reject, maxDepth⟩ tokens = .error (.duplicateName b.name b.position) ∧
        ∀ i t, tokens[i]? = some t → e.position? = some t.position → k ≤ i) ∧
    ∀ (options : Options) text bindings scope, options.bindings text = .ok bindings →
      ∃ set, options.bind text scope = .ok set ∧ set.names = bindings.map Binding.name := by
  refine ⟨?_, ?_, ?_, ?_, ?_, ?_⟩
  · rintro bindings (accepted | accepted) <;> exact nodup_of_parse accepted
  · intro bindings accepted
    rcases parse_policies maxDepth tokens with same | ⟨_, _, _, _, refused⟩
    · rw [← same, accepted]
    · rw [refused.refusedAll] at accepted
      cases accepted
  · intro e failed notDuplicate
    rcases parse_policies maxDepth tokens with same | ⟨_, _, _, _, refused⟩
    · rw [← same, failed]
    · obtain ⟨_, b, _, _, rfl⟩ := refused.exists_repeated
      rw [refused.refusedAll] at failed
      cases failed
      exact absurd rfl (notDuplicate b.name b.position)
  · intro bindings accepted
    obtain ⟨raw, isBindings, _⟩ := parse_eq_ok_iff.1 accepted
    exact ⟨⟨raw, isBindings⟩, fun _ => strict_of_accepted accepted⟩
  · intro e failed
    rcases parse_policies maxDepth tokens with same | ⟨pre, post, _, rfl, refused⟩
    · exact .inl (same.trans failed)
    · right
      obtain ⟨raw, b, isBindings, first, rfl⟩ := refused.exists_repeated
      obtain ⟨s, ran⟩ := refused.ran
      refine ⟨pre.length, raw, b, ?_, first, refused.refusedAll, ?_⟩
      · rwa [List.take_left]
      · exact length_le_of_position distinct ran failed
  · intro options text bindings scope accepted
    exact options.exists_bind accepted scope

theorem name_is_repeated_before_bracket :
    let tokens : List Token := [⟨.identifier, "a", ⟨1, 1, 0⟩⟩, ⟨.colon, ":", ⟨1, 2, 1⟩⟩,
      ⟨.null, "null", ⟨1, 4, 3⟩⟩, ⟨.comma, ",", ⟨1, 8, 7⟩⟩, ⟨.identifier, "a", ⟨1, 10, 9⟩⟩,
      ⟨.colon, ":", ⟨1, 11, 10⟩⟩, ⟨.identifier, "x", ⟨1, 13, 12⟩⟩,
      ⟨.rightBracket, "]", ⟨1, 14, 13⟩⟩]
    let e : ParseError := .unexpectedToken .bindingEnd ⟨.rightBracket, "]", ⟨1, 14, 13⟩⟩
    (tokens.map Token.position).Nodup ∧ parse ⟨.lastWins, 1⟩ tokens = .error e ∧
      ∃ k raw b, IsBindings (tokens.take k) raw ∧ IsFirstRepeated b raw ∧
        parse ⟨.reject, 1⟩ tokens = .error (.duplicateName b.name b.position) ∧
        ∀ i t, tokens[i]? = some t → e.position? = some t.position → k ≤ i := by
  intro tokens e
  have distinct : (tokens.map Token.position).Nodup := by decide
  have lax : parse ⟨.lastWins, 1⟩ tokens = .error e := rfl
  have strict : parse ⟨.reject, 1⟩ tokens = .error (.duplicateName "a" ⟨1, 10, 9⟩) := rfl
  obtain ⟨_, _, _, _, afterError, _⟩ := parse_under_policies 1 distinct
  refine ⟨distinct, lax, ?_⟩
  rcases afterError e lax with same | repeated
  · rw [strict] at same
    exact absurd same (by simp [e])
  · exact repeated

end Parser

end Bindlang
