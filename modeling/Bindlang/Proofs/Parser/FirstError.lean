import Bindlang.Proofs.Parser.ErrorCauses

namespace Bindlang.Parser

variable {maxDepth : Nat} {bindings : List Binding} {hole : Hole} {t : Token}

/-- Some more tokens, none of which goes on with a path, complete the bindings. -/
def Closes (rules : Rules) (s : State) : Prop :=
  ∃ more bindings, (∀ t ∈ more, EndsPath t) ∧
    run rules s more >>= finish rules.duplicates = .ok bindings

def Completes (rules : Rules) (s : State) : Prop :=
  ∃ more bindings, run rules s more >>= finish rules.duplicates = .ok bindings

theorem Closes.completes {rules : Rules} {s : State} (closes : Closes rules s) :
    Completes rules s := by
  obtain ⟨more, bindings, _, done⟩ := closes
  exact ⟨more, bindings, done⟩

theorem Closes.step {rules : Rules} {s s' : State} (took : step rules s t = .ok s')
    (ends : EndsPath t) (closes : Closes rules s') : Closes rules s := by
  obtain ⟨more, bindings, allEnd, done⟩ := closes
  refine ⟨t :: more, bindings, List.forall_mem_cons.2 ⟨ends, allEnd⟩, ?_⟩
  rw [run_cons, took, Except.ok_bind, done]

theorem Completes.step {rules : Rules} {s s' : State} (took : step rules s t = .ok s')
    (completes : Completes rules s') : Completes rules s := by
  obtain ⟨more, bindings, done⟩ := completes
  refine ⟨t :: more, bindings, ?_⟩
  rw [run_cons, took, Except.ok_bind, done]

theorem Closes.settle {rules : Rules} {s s' : State}
    (settled : settle rules.duplicates s = .ok s') (closes : Closes rules s') : Closes rules s := by
  obtain ⟨more, bindings, allEnd, done⟩ := closes
  refine ⟨more, bindings, allEnd, ?_⟩
  cases more with
  | nil =>
    rw [run_nil, Except.ok_bind] at done ⊢
    rw [finish_eq_settle, settled, Except.ok_bind, done]
  | cons t more =>
    rw [run_cons, step_eq_settle (allEnd t List.mem_cons_self), settled, Except.ok_bind, ← run_cons, done]

theorem fill_lastWins (bindings : List Binding) (hole : Hole) (value : Expression) :
    ∃ bindings' separator, fill .lastWins bindings hole value = .ok (bindings', separator) := by
  obtain ⟨name, position, frames⟩ := hole
  cases frames with
  | nil => exact ⟨_, _, by rw [fill, add_lastWins]; rfl⟩
  | cons frame frames => cases frame <;> exact ⟨_, _, rfl⟩

theorem complete_lastWins (bindings : List Binding) (hole : Hole) (value : Expression) :
    ∃ s, complete .lastWins bindings hole value = .ok s := by
  obtain ⟨bindings', separator, filled⟩ := fill_lastWins bindings hole value
  exact ⟨_, by rw [complete, filled]; rfl⟩

def mark (kind : TokenKind) : Token :=
  ⟨kind, "", .start⟩

theorem endsPath_mark {kind : TokenKind} (notDot : kind ≠ .dot) (notParen : kind ≠ .leftParen) :
    EndsPath (mark kind) :=
  ⟨notDot, notParen⟩

theorem closes_element {items : List Expression}
    (around : ∀ value s, complete .lastWins bindings hole value = .ok s →
      Closes ⟨.lastWins, maxDepth⟩ s) :
    Closes ⟨.lastWins, maxDepth⟩ ⟨bindings, .separator (.element hole items)⟩ := by
  obtain ⟨s, done⟩ := complete_lastWins bindings hole (.array items.reverse)
  have took : step ⟨.lastWins, maxDepth⟩ ⟨bindings, .separator (.element hole items)⟩
      (mark .rightBracket) = .ok s := done
  exact .step took (endsPath_mark (by decide) (by decide)) (around _ s done)

theorem closes_entry {entries : List (String × Expression)}
    (around : ∀ value s, complete .lastWins bindings hole value = .ok s →
      Closes ⟨.lastWins, maxDepth⟩ s) :
    Closes ⟨.lastWins, maxDepth⟩ ⟨bindings, .separator (.entry hole entries)⟩ := by
  obtain ⟨s, done⟩ := complete_lastWins bindings hole (.object entries.reverse)
  have took : step ⟨.lastWins, maxDepth⟩ ⟨bindings, .separator (.entry hole entries)⟩
      (mark .rightBrace) = .ok s := done
  exact .step took (endsPath_mark (by decide) (by decide)) (around _ s done)

theorem closes_of_complete {s : State} {value : Expression}
    (done : complete .lastWins bindings hole value = .ok s) : Closes ⟨.lastWins, maxDepth⟩ s := by
  obtain ⟨name, position, frames⟩ := hole
  -- The value that closing a frame makes is not known beforehand, so the claim is for all values.
  induction frames generalizing s value with
  | nil =>
    rw [complete_binding .lastWins ⟨name, value, position⟩, add_lastWins] at done
    cases done
    exact ⟨[], _, by simp, rfl⟩
  | cons frame frames ih =>
    cases frame with
    | array items =>
      cases done
      exact closes_element fun _ _ => ih
    | object entries key =>
      cases done
      exact closes_entry fun _ _ => ih

theorem closes_value (bindings : List Binding) (hole : Hole) :
    Closes ⟨.lastWins, maxDepth⟩ ⟨bindings, .value hole⟩ := by
  obtain ⟨s, done⟩ := complete_lastWins bindings hole (.literal .null)
  have took : step ⟨.lastWins, maxDepth⟩ ⟨bindings, .value hole⟩ (mark .null) = .ok s := done
  exact .step took (endsPath_mark (by decide) (by decide)) (closes_of_complete done)

theorem closes_entryColon (bindings : List Binding) (hole : Hole)
    (entries : List (String × Expression)) (key : String) :
    Closes ⟨.lastWins, maxDepth⟩ ⟨bindings, .entryColon hole entries key⟩ :=
  .step (t := mark .colon) rfl (endsPath_mark (by decide) (by decide)) (closes_value _ _)

theorem closes_path (bindings : List Binding) (hole : Hole) (path : List Segment) :
    Closes ⟨.lastWins, maxDepth⟩ ⟨bindings, .pathEnd hole path⟩ := by
  obtain ⟨s, done⟩ := complete_lastWins bindings hole (.path path.reverse)
  have settled : settle .lastWins ⟨bindings, .pathEnd hole path⟩ = .ok s := done
  exact .settle settled (closes_of_complete done)

theorem closes_nameEnd (bindings : List Binding) (hole : Hole) (path : List Segment)
    (name : String) : Closes ⟨.lastWins, maxDepth⟩ ⟨bindings, .nameEnd hole path name⟩ := by
  obtain ⟨s, done⟩ := complete_lastWins bindings hole (.path (⟨name, false⟩ :: path).reverse)
  have settled : settle .lastWins ⟨bindings, .nameEnd hole path name⟩ = .ok s := done
  exact .settle settled (closes_of_complete done)

theorem closes_separator (bindings : List Binding) (separator : Separator) :
    Closes ⟨.lastWins, maxDepth⟩ ⟨bindings, .separator separator⟩ := by
  cases separator with
  | binding => exact ⟨[], bindings, by simp, rfl⟩
  | element hole items => exact closes_element fun _ _ => closes_of_complete
  | entry hole entries => exact closes_entry fun _ _ => closes_of_complete

theorem completes (maxDepth : Nat) (s : State) : Completes ⟨.lastWins, maxDepth⟩ s := by
  obtain ⟨bindings, awaiting⟩ := s
  cases awaiting with
  | bindingName =>
    have named : Completes ⟨.lastWins, maxDepth⟩ ⟨bindings, .bindingColon "" .start⟩ :=
      .step (t := mark .colon) rfl (closes_value bindings ⟨"", .start, []⟩).completes
    exact .step (t := mark .identifier) rfl named
  | bindingColon name position =>
    exact .step (t := mark .colon) rfl (closes_value bindings ⟨name, position, []⟩).completes
  | value hole => exact (closes_value bindings hole).completes
  | firstElement hole =>
    obtain ⟨s, done⟩ := complete_lastWins bindings hole (.array [])
    have took : step ⟨.lastWins, maxDepth⟩ ⟨bindings, .firstElement hole⟩ (mark .rightBracket) =
        .ok s := done
    exact .step took (closes_of_complete done).completes
  | firstKey hole =>
    obtain ⟨s, done⟩ := complete_lastWins bindings hole (.object [])
    have took : step ⟨.lastWins, maxDepth⟩ ⟨bindings, .firstKey hole⟩ (mark .rightBrace) =
        .ok s := done
    exact .step took (closes_of_complete done).completes
  | nextKey hole entries =>
    exact .step (t := mark .string) rfl (closes_entryColon bindings hole entries "").completes
  | entryColon hole entries key => exact (closes_entryColon bindings hole entries key).completes
  | nameEnd hole path name => exact (closes_nameEnd bindings hole path name).completes
  | callEnd hole path name =>
    exact .step (t := mark .rightParen) rfl (closes_path bindings hole _).completes
  | pathEnd hole path => exact (closes_path bindings hole path).completes
  | memberName hole path =>
    exact .step (t := mark .identifier) rfl (closes_nameEnd bindings hole path "").completes
  | separator separator => exact (closes_separator bindings separator).completes

def IsAbout (t : Token) (maxDepth : Nat) (e : ParseError) : Prop :=
  (∃ expected, e = .unexpectedToken expected t) ∨ e = .nestingTooDeep maxDepth t.position

theorem IsAbout.unexpected (expected : Expected) :
    IsAbout t maxDepth (.unexpectedToken expected t) :=
  .inl ⟨expected, rfl⟩

theorem IsAbout.position {e : ParseError} (about : IsAbout t maxDepth e) :
    e.position? = some t.position := by
  rcases about with ⟨expected, rfl⟩ | rfl <;> rfl

theorem isAbout_of_step {s : State} {e : ParseError}
    (failed : step ⟨.lastWins, maxDepth⟩ s t = .error e) : IsAbout t maxDepth e := by
  cases refuses_of_step failed with
  | unexpected | unreadable => exact .unexpected _
  | tooDeep => exact .inr rfl
  | repeated _ rejects => cases rejects

theorem unexpectedEnd_of_finish {s : State} {e : ParseError}
    (failed : finish .lastWins s = .error e) : ∃ expected, e = .unexpectedEnd expected := by
  cases refusesEnd_of_finish failed with
  | missing expected => exact ⟨expected, rfl⟩
  | repeated _ rejects => cases rejects

/-- Some bindings begin with these tokens. -/
def Viable (rules : Rules) (ts : List Token) : Prop :=
  ∃ more bindings, parse rules (ts ++ more) = .ok bindings

/-- Some bindings begin with the tokens before the `i`th, and none with the `i`th behind them. -/
structure IsToBlame (rules : Rules) (tokens : List Token) (i : Nat) (e : ParseError) : Prop where
  viable : Viable rules (tokens.take i)
  stuck : ∀ more, parse rules (tokens.take (i + 1) ++ more) = .error e

theorem viable_of_run {ts : List Token} {s : State}
    (ran : run ⟨.lastWins, maxDepth⟩ start ts = .ok s) : Viable ⟨.lastWins, maxDepth⟩ ts := by
  obtain ⟨more, bindings, done⟩ := completes maxDepth s
  refine ⟨more, ?_⟩
  unfold parse
  split
  · exact ⟨[], rfl⟩
  · exact ⟨bindings, by rw [run_append, ran, Except.ok_bind, done]⟩

/-- An error is about the first token to blame, or the tokens end too early. -/
theorem parse_lastWins_eq_error {tokens : List Token} {e : ParseError}
    (distinct : (tokens.map Token.position).Nodup)
    (failed : parse ⟨.lastWins, maxDepth⟩ tokens = .error e) :
    (∃ i t, tokens[i]? = some t ∧ IsAbout t maxDepth e ∧
      (∀ j u, tokens[j]? = some u → e.position? = some u.position → j = i) ∧
      IsToBlame ⟨.lastWins, maxDepth⟩ tokens i e) ∨
    ∃ expected more bindings, e = .unexpectedEnd expected ∧ more ≠ [] ∧
      parse ⟨.lastWins, maxDepth⟩ (tokens ++ more) = .ok bindings := by
  unfold parse at failed
  split at failed
  · cases failed
  · rename_i filled
    rcases Except.bind_eq_error_iff.1 failed with failed | ⟨s, ran, failed⟩
    · -- A step fails. The tokens before it ran, and every state they lead to can be completed.
      left
      obtain ⟨pre, t, post, s, rfl, ran, failed⟩ := exists_step_of_run failed
      have about := isAbout_of_step failed
      refine ⟨pre.length, t, by simp, about, ?_, ?_, ?_⟩
      · intro j u at_j same
        have shared : t.position = u.position := by simpa [about.position] using same
        have within : pre.length < ((pre ++ t :: post).map Token.position).length := by simp
        have here : ((pre ++ t :: post).map Token.position)[pre.length]? = some t.position := by simp
        have there : ((pre ++ t :: post).map Token.position)[j]? = some u.position := by
          rw [List.getElem?_map, at_j]
          rfl
        exact ((List.getElem?_inj within distinct).1 (by rw [here, there, shared])).symm
      · simpa using viable_of_run ran
      · intro more
        have stuck : run ⟨.lastWins, maxDepth⟩ start (pre ++ t :: more) = .error e := by
          rw [run_append, ran, Except.ok_bind, run_cons, failed, Except.error_bind]
        have through : (pre ++ t :: post).take (pre.length + 1) ++ more = pre ++ t :: more := by
          rw [List.take_length_add_append, List.append_assoc]
          rfl
        have filled : pre ++ t :: more ≠ [] := by simp
        rw [through, parse, if_neg filled, stuck, Except.error_bind]
    · -- All tokens ran. More are needed, since none at all are no completion.
      right
      obtain ⟨expected, rfl⟩ := unexpectedEnd_of_finish failed
      obtain ⟨more, bindings, done⟩ := completes maxDepth s
      refine ⟨expected, more, bindings, rfl, ?_, ?_⟩
      · rintro rfl
        rw [run_nil, Except.ok_bind, failed] at done
        cases done
      · rw [parse, if_neg (by simp [filled]), run_append, ran, Except.ok_bind, done]

theorem second_bracket_is_to_blame :
    let tokens : List Token := [⟨.identifier, "a", ⟨1, 1, 0⟩⟩, ⟨.colon, ":", ⟨1, 2, 1⟩⟩,
      ⟨.leftBracket, "[", ⟨1, 4, 3⟩⟩, ⟨.null, "null", ⟨1, 5, 4⟩⟩, ⟨.comma, ",", ⟨1, 9, 8⟩⟩,
      ⟨.leftBracket, "[", ⟨1, 10, 9⟩⟩]
    let e : ParseError := .nestingTooDeep 1 ⟨1, 10, 9⟩
    (tokens.map Token.position).Nodup ∧ parse ⟨.lastWins, 1⟩ tokens = .error e ∧
      ((∃ i t, tokens[i]? = some t ∧ IsAbout t 1 e ∧
        (∀ j u, tokens[j]? = some u → e.position? = some u.position → j = i) ∧
        IsToBlame ⟨.lastWins, 1⟩ tokens i e) ∨
      ∃ expected more bindings, e = .unexpectedEnd expected ∧ more ≠ [] ∧
        parse ⟨.lastWins, 1⟩ (tokens ++ more) = .ok bindings) := by
  intro tokens e
  have distinct : (tokens.map Token.position).Nodup := by decide
  have failed : parse ⟨.lastWins, 1⟩ tokens = .error e := rfl
  exact ⟨distinct, failed, parse_lastWins_eq_error distinct failed⟩

end Bindlang.Parser
