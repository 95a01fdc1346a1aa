import Bindlang.Proofs.Data.Except
import Bindlang.Proofs.Data.KeyedLists
import Bindlang.Proofs.Parser.Grammar

namespace Bindlang.Parser

open Grammar

/-- Finishes a path, if one may end here. The machine itself does so only at the next token. -/
def settle (policy : DuplicatePolicy) (s : State) : Except ParseError State :=
  match s.awaiting with
  | .nameEnd hole path name =>
    complete policy s.bindings hole (.path (⟨name, false⟩ :: path).reverse)
  | .pathEnd hole path => complete policy s.bindings hole (.path path.reverse)
  | _ => .ok s

def EndsPath (t : Token) : Prop :=
  t.kind ≠ .dot ∧ t.kind ≠ .leftParen

variable {rules : Rules} {bindings : List Binding} {hole : Hole} {ts us : List Token} {t : Token}

theorem EndsPath.of_kind {kind : TokenKind} (same : t.kind = kind) (notDot : kind ≠ .dot)
    (notParen : kind ≠ .leftParen) : EndsPath t :=
  ⟨same ▸ notDot, same ▸ notParen⟩

theorem leavePath_eq (path : List Segment) :
    leavePath rules.duplicates bindings hole path t =
      complete rules.duplicates bindings hole (.path path.reverse) >>= (step rules · t) := by
  unfold leavePath complete
  cases fill rules.duplicates bindings hole (.path path.reverse) <;> rfl

theorem endPath_eq (policy : DuplicatePolicy) (path : List Segment) :
    endPath policy bindings hole path =
      complete policy bindings hole (.path path.reverse) >>= finish policy := by
  unfold endPath complete
  cases fill policy bindings hole (.path path.reverse) <;> rfl

theorem step_eq_settle (ends : EndsPath t) (s : State) :
    step rules s t = settle rules.duplicates s >>= (step rules · t) := by
  obtain ⟨bindings, awaiting⟩ := s
  obtain ⟨notDot, notParen⟩ := ends
  cases awaiting with
  | nameEnd hole path name =>
    have leaves : step rules ⟨bindings, .nameEnd hole path name⟩ t =
        leavePath rules.duplicates bindings hole (⟨name, false⟩ :: path) t := by
      simp [step, notDot, notParen]
    rw [leaves, leavePath_eq]
    rfl
  | pathEnd hole path =>
    have leaves : step rules ⟨bindings, .pathEnd hole path⟩ t =
        leavePath rules.duplicates bindings hole path t := by
      simp [step, notDot]
    rw [leaves, leavePath_eq]
    rfl
  | _ => rfl

theorem finish_eq_settle (policy : DuplicatePolicy) (s : State) :
    finish policy s = settle policy s >>= finish policy := by
  obtain ⟨bindings, awaiting⟩ := s
  cases awaiting with
  | nameEnd hole path name => exact endPath_eq policy (⟨name, false⟩ :: path)
  | pathEnd hole path => exact endPath_eq policy path
  | _ => rfl

theorem run_cons (rules : Rules) (s : State) (t : Token) (ts : List Token) :
    run rules s (t :: ts) = step rules s t >>= fun s => run rules s ts :=
  List.foldlM_cons

theorem run_append_cons (ends : EndsPath t) (s : State) :
    run rules s (ts ++ t :: us) =
      (run rules s ts >>= settle rules.duplicates) >>= fun s => run rules s (t :: us) := by
  -- A path is open until the token behind it is seen, so the two runs meet only once it is settled.
  rw [run_append, bind_assoc]
  congr 1
  funext s
  simp only [run_cons]
  rw [step_eq_settle ends, bind_assoc]

theorem settle_complete (policy : DuplicatePolicy) (value : Expression) :
    complete policy bindings hole value >>= settle policy = complete policy bindings hole value := by
  unfold complete
  cases fill policy bindings hole value <;> rfl

@[simp] theorem run_nil (rules : Rules) (s : State) : run rules s [] = .ok s := rfl

@[simp] theorem run_singleton (rules : Rules) (s : State) (t : Token) :
    run rules s [t] = step rules s t := by
  simp only [run_cons, run_nil, Except.bind_ok]

theorem run_segment {segment : Segment} (isSegment : IsSegment ts segment) (path : List Segment) :
    run rules ⟨bindings, .memberName hole path⟩ ts >>= settle rules.duplicates =
      complete rules.duplicates bindings hole (.path (segment :: path).reverse) := by
  cases isSegment with
  | member name => simp only [run_cons, step, name, ↓reduceIte, Except.ok_bind, run_nil, settle]
  | call name opens closes =>
    simp only [run_cons, step, name, opens, closes, ↓reduceIte, Except.ok_bind, run_nil, settle]

theorem run_segment_dot {segment : Segment} (isSegment : IsSegment ts segment)
    (dot : t.kind = .dot) (path : List Segment) :
    run rules ⟨bindings, .memberName hole path⟩ (ts ++ t :: us) =
      run rules ⟨bindings, .memberName hole (segment :: path)⟩ us := by
  cases isSegment with
  | member name => simp [run_cons, step, name, dot]
  | call name opens closes => simp [run_cons, step, name, opens, closes, dot]

theorem run_path {p : Path} (isPath : IsPath ts p) (path : List Segment) :
    run rules ⟨bindings, .memberName hole path⟩ ts >>= settle rules.duplicates =
      complete rules.duplicates bindings hole (.path (path.reverse ++ p)) := by
  unfold IsPath at isPath
  induction isPath generalizing path with
  | one isSegment => rw [run_segment isSegment, List.reverse_cons]
  | more isSegment dot _ ih =>
    rw [run_segment_dot isSegment dot, ih]
    simp

/-- Over these tokens the machine puts the value into any place with room for it. -/
def Fills (rules : Rules) (ts : List Token) (value : Expression) : Prop :=
  ∀ bindings hole, value.depth + hole.frames.length ≤ rules.maxDepth →
    run rules ⟨bindings, .value hole⟩ ts >>= settle rules.duplicates =
      complete rules.duplicates bindings hole value

theorem fills_literal {l : Literal} (isLiteral : IsLiteral t l) : Fills rules [t] (.literal l) := by
  intro bindings hole _
  have begins : step rules ⟨bindings, .value hole⟩ t =
      complete rules.duplicates bindings hole (.literal l) := by
    cases isLiteral with
    | number kind reads => simp only [step, beginValue, kind, reads]
    | string kind | boolean kind | null kind | undefined kind => simp only [step, beginValue, kind]
  rw [run_singleton, begins, settle_complete]

theorem fills_path {p : Path} (isPath : IsPath ts p) : Fills rules ts (.path p) := by
  intro bindings hole _
  have same :
      run rules ⟨bindings, .value hole⟩ ts = run rules ⟨bindings, .memberName hole []⟩ ts := by
    cases isPath with
    | one isSegment | more isSegment =>
      cases isSegment with
      | member name | call name => simp [run_cons, step, beginValue, name]
  rw [same, run_path isPath, List.reverse_nil, List.nil_append]

theorem Fills.run_append_cons {value : Expression} (fills : Fills rules ts value)
    (room : value.depth + hole.frames.length ≤ rules.maxDepth) (ends : EndsPath t) :
    run rules ⟨bindings, .value hole⟩ (ts ++ t :: us) =
      complete rules.duplicates bindings hole value >>= fun s => run rules s (t :: us) := by
  rw [Parser.run_append_cons ends, fills bindings hole room]

theorem run_items {values : List Expression} (filled : Separated .comma (Fills rules) ts values)
    (room : ∀ value ∈ values, value.depth + (hole.frames.length + 1) ≤ rules.maxDepth)
    (items : List Expression) :
    run rules ⟨bindings, .value (hole.inArray items)⟩ ts >>= settle rules.duplicates =
      .ok ⟨bindings, .separator (.element hole (values.reverse ++ items))⟩ := by
  induction filled generalizing items with
  | one fills => exact fills _ _ (room _ (List.mem_singleton_self _))
  | @more ts us m value values fills comma _ ih =>
    have first : complete rules.duplicates bindings (hole.inArray items) value =
        .ok ⟨bindings, .separator (.element hole (value :: items))⟩ := rfl
    have next : step rules ⟨bindings, .separator (.element hole (value :: items))⟩ m =
        .ok ⟨bindings, .value (hole.inArray (value :: items))⟩ := by
      simp [step, separate, comma]
    have fits : value.depth + (hole.inArray items).frames.length ≤ rules.maxDepth :=
      room value List.mem_cons_self
    rw [fills.run_append_cons fits (.of_kind comma (by decide) (by decide)), first, Except.ok_bind,
      run_cons, next, Except.ok_bind,
      ih fun value member => room value (List.mem_cons_of_mem _ member)]
    simp

theorem run_entry {entry : String × Expression}
    (isEntry : IsEntry (Fills rules) ts entry) (entries : List (String × Expression)) :
    ∃ us, Fills rules us entry.2 ∧ ∀ rest,
      run rules ⟨bindings, .nextKey hole entries⟩ (ts ++ rest) =
        run rules ⟨bindings, .value (hole.inObject entries entry.1)⟩ (us ++ rest) := by
  cases isEntry with
  | @mk k c us value key colon fills =>
    refine ⟨us, fills, fun rest => ?_⟩
    have named : step rules ⟨bindings, .nextKey hole entries⟩ k =
        .ok ⟨bindings, .entryColon hole entries k.lexeme⟩ := by
      simp [step, beginEntry, key]
    have pointed : step rules ⟨bindings, .entryColon hole entries k.lexeme⟩ c =
        .ok ⟨bindings, .value (hole.inObject entries k.lexeme)⟩ := by
      simp [step, colon]
    rw [List.cons_append, run_cons, named, Except.ok_bind, List.cons_append, run_cons, pointed,
      Except.ok_bind]

theorem run_entries {values : List (String × Expression)}
    (filled : Separated .comma (IsEntry (Fills rules)) ts values)
    (room : ∀ value ∈ values, value.2.depth + (hole.frames.length + 1) ≤ rules.maxDepth)
    (entries : List (String × Expression)) :
    run rules ⟨bindings, .nextKey hole entries⟩ ts >>= settle rules.duplicates =
      .ok ⟨bindings, .separator (.entry hole (values.reverse ++ entries))⟩ := by
  induction filled generalizing entries with
  | one isEntry =>
    obtain ⟨us, fills, same⟩ := run_entry isEntry entries
    have whole := same []
    rw [List.append_nil, List.append_nil] at whole
    rw [whole]
    exact fills _ _ (room _ (List.mem_singleton_self _))
  | @more ts vs m value values isEntry comma _ ih =>
    obtain ⟨us, fills, same⟩ := run_entry isEntry entries
    have first : complete rules.duplicates bindings (hole.inObject entries value.1) value.2 =
        .ok ⟨bindings, .separator (.entry hole (value :: entries))⟩ := rfl
    have next : step rules ⟨bindings, .separator (.entry hole (value :: entries))⟩ m =
        .ok ⟨bindings, .nextKey hole (value :: entries)⟩ := by
      simp [step, separate, comma]
    have fits : value.2.depth + (hole.inObject entries value.1).frames.length ≤ rules.maxDepth :=
      room value List.mem_cons_self
    rw [same, fills.run_append_cons fits (.of_kind comma (by decide) (by decide)), first, Except.ok_bind,
      run_cons, next, Except.ok_bind,
      ih fun value member => room value (List.mem_cons_of_mem _ member)]
    simp

theorem step_open {mark : Token} {next : State} (room : hole.frames.length < rules.maxDepth) :
    openContainer rules.maxDepth hole mark next = .ok next := by
  simp [openContainer, Nat.not_le_of_lt room]

theorem fills_array {o c : Token} {values : List Expression} (opens : o.kind = .leftBracket)
    (items : CommaList (fun ts e => IsValue ts e ∧ Fills rules ts e) ts values)
    (closes : c.kind = .rightBracket) : Fills rules (o :: (ts ++ [c])) (.array values) := by
  intro bindings hole room
  obtain ⟨level, room⟩ := Expression.depth_array_add_le_iff.1 room
  have opened : step rules ⟨bindings, .value hole⟩ o = .ok ⟨bindings, .firstElement hole⟩ := by
    simp [step, beginValue, opens, step_open level]
  rw [run_cons, opened, Except.ok_bind]
  cases items with
  | none =>
    have closed : step rules ⟨bindings, .firstElement hole⟩ c =
        complete rules.duplicates bindings hole (.array []) := by
      simp [step, closes]
    rw [List.nil_append, run_singleton, closed, settle_complete]
  | some items =>
    -- The first token of an item closes nothing, so the machine takes it for a value's.
    have begins : run rules ⟨bindings, .firstElement hole⟩ (ts ++ [c]) =
        run rules ⟨bindings, .value (hole.inArray [])⟩ (ts ++ [c]) := by
      cases items with
      | one item | more item =>
        obtain ⟨t, us, rfl, notClosing⟩ := item.1.exists_cons
        simp [run_cons, step, notClosing]
    have closed : step rules ⟨bindings, .separator (.element hole values.reverse)⟩ c =
        complete rules.duplicates bindings hole (.array values) := by
      simp [step, separate, closes]
    have read : run rules ⟨bindings, .value (hole.inArray [])⟩ ts >>= settle rules.duplicates =
        .ok ⟨bindings, .separator (.element hole values.reverse)⟩ := by
      simpa using run_items (items.imp fun _ _ => And.right) room []
    rw [begins, run_append_cons (.of_kind closes (by decide) (by decide)), read, Except.ok_bind,
      run_singleton, closed, settle_complete]

theorem fills_object {o c : Token} {values : List (String × Expression)}
    (opens : o.kind = .leftBrace)
    (entries : CommaList (IsEntry fun ts e => IsValue ts e ∧ Fills rules ts e) ts values)
    (closes : c.kind = .rightBrace) : Fills rules (o :: (ts ++ [c])) (.object values) := by
  intro bindings hole room
  obtain ⟨level, room⟩ := Expression.depth_object_add_le_iff.1 room
  have opened : step rules ⟨bindings, .value hole⟩ o = .ok ⟨bindings, .firstKey hole⟩ := by
    simp [step, beginValue, opens, step_open level]
  rw [run_cons, opened, Except.ok_bind]
  cases entries with
  | none =>
    have closed : step rules ⟨bindings, .firstKey hole⟩ c =
        complete rules.duplicates bindings hole (.object []) := by
      simp [step, closes]
    rw [List.nil_append, run_singleton, closed, settle_complete]
  | some entries =>
    have begins : run rules ⟨bindings, .firstKey hole⟩ (ts ++ [c]) =
        run rules ⟨bindings, .nextKey hole []⟩ (ts ++ [c]) := by
      cases entries with
      | one entry | more entry =>
        cases entry with
        | mk key =>
          rcases key with kind | kind <;> simp [run_cons, step, kind]
    have closed : step rules ⟨bindings, .separator (.entry hole values.reverse)⟩ c =
        complete rules.duplicates bindings hole (.object values) := by
      simp [step, separate, closes]
    have read : run rules ⟨bindings, .nextKey hole []⟩ ts >>= settle rules.duplicates =
        .ok ⟨bindings, .separator (.entry hole values.reverse)⟩ := by
      simpa using run_entries (entries.imp fun _ _ entry => entry.imp fun _ _ => And.right) room []
    rw [begins, run_append_cons (.of_kind closes (by decide) (by decide)), read, Except.ok_bind,
      run_singleton, closed, settle_complete]

theorem fills_of_isValue {value : Expression} (isValue : IsValue ts value) :
    Fills rules ts value :=
  isValue.inductionOn fills_literal fills_path fills_array fills_object

theorem add_lastWins (bindings : List Binding) (b : Binding) :
    add .lastWins bindings b = .ok (Keyed.put Binding.name b bindings) := by
  simp [add]

def behindBinding (bindings : List Binding) : State :=
  ⟨bindings, .separator .binding⟩

theorem complete_binding (policy : DuplicatePolicy) (b : Binding) :
    complete policy bindings ⟨b.name, b.position, []⟩ b.value =
      (add policy bindings b).map behindBinding := by
  simp only [complete, fill]
  cases add policy bindings b <;> rfl

theorem run_binding {b : Binding} (isBinding : IsBinding ts b)
    (room : b.value.depth ≤ rules.maxDepth) :
    run rules ⟨bindings, .bindingName⟩ ts >>= settle rules.duplicates =
      (add rules.duplicates bindings b).map behindBinding := by
  cases isBinding with
  | @mk n c ts value name colon isValue =>
    have named : step rules ⟨bindings, .bindingName⟩ n =
        .ok ⟨bindings, .bindingColon n.lexeme n.position⟩ := by
      simp [step, name]
    have pointed : step rules ⟨bindings, .bindingColon n.lexeme n.position⟩ c =
        .ok ⟨bindings, .value ⟨n.lexeme, n.position, []⟩⟩ := by
      simp [step, colon]
    rw [run_cons, named, Except.ok_bind, run_cons, pointed, Except.ok_bind,
      fills_of_isValue isValue bindings ⟨n.lexeme, n.position, []⟩ room]
    exact complete_binding rules.duplicates ⟨n.lexeme, value, n.position⟩

theorem run_bindings {raw : List Binding} (separated : Separated .comma IsBinding ts raw)
    (room : ∀ b ∈ raw, b.value.depth ≤ rules.maxDepth) (bindings : List Binding) :
    run rules ⟨bindings, .bindingName⟩ ts >>= settle rules.duplicates =
      (raw.foldlM (add rules.duplicates) bindings).map behindBinding := by
  induction separated generalizing bindings with
  | @one ts b isBinding =>
    rw [run_binding isBinding (room b (List.mem_singleton_self b)), List.foldlM_cons]
    simp only [List.foldlM_nil, Except.pure_eq_ok, Except.bind_ok]
  | @more ts us m b raw isBinding comma _ ih =>
    rw [run_append_cons (.of_kind comma (by decide) (by decide)),
      run_binding isBinding (room b List.mem_cons_self), List.foldlM_cons]
    cases add rules.duplicates bindings b with
    | error e => rfl
    | ok bindings =>
      have next : step rules (behindBinding bindings) m = .ok ⟨bindings, .bindingName⟩ := by
        simp [step, separate, behindBinding, comma]
      have others := ih (fun b member => room b (List.mem_cons_of_mem _ member)) bindings
      simpa [Except.map, run_cons, next] using others

theorem parse_of_isBindings {raw : List Binding} (isBindings : IsBindings ts raw)
    (room : ∀ b ∈ raw, b.value.depth ≤ rules.maxDepth) :
    parse rules ts = raw.foldlM (add rules.duplicates) [] := by
  cases isBindings with
  | none => rfl
  | some separated =>
    have filled : ts ≠ [] := by
      cases separated with
      | one isBinding | more isBinding => cases isBinding; simp
    have read := run_bindings separated room []
    have settled : ∀ s, finish rules.duplicates s =
        settle rules.duplicates s >>= finish rules.duplicates :=
      finish_eq_settle rules.duplicates
    -- A path may end the tokens: what `finish` does to it, `settle` has done before.
    rw [parse, if_neg filled, funext settled, ← bind_assoc]
    change run rules ⟨[], .bindingName⟩ ts >>= settle rules.duplicates >>= _ = _
    rw [read]
    cases raw.foldlM (add rules.duplicates) [] <;> rfl

theorem add_of_fresh (policy : DuplicatePolicy) {b : Binding}
    (fresh : b.name ∉ bindings.map Binding.name) :
    add policy bindings b = .ok (bindings ++ [b]) := by
  have absent : Keyed.contains Binding.name b.name bindings = false := by
    rw [Keyed.contains, List.any_eq_false]
    intro other member
    rw [decide_eq_true_eq]
    exact fun same => fresh (same ▸ List.mem_map_of_mem member)
  simp [add, absent, Keyed.put_of_fresh fresh]

theorem foldlM_add_of_distinct (policy : DuplicatePolicy) {raw : List Binding}
    (distinct : ((bindings ++ raw).map Binding.name).Nodup) :
    raw.foldlM (add policy) bindings = .ok (bindings ++ raw) := by
  induction raw generalizing bindings with
  | nil => simp
  | cons b raw ih =>
    have fresh : b.name ∉ bindings.map Binding.name := by
      rw [List.map_append, List.nodup_append] at distinct
      exact fun member => distinct.2.2 _ member _ List.mem_cons_self rfl
    have others : ((bindings ++ [b] ++ raw).map Binding.name).Nodup := by simpa using distinct
    rw [List.foldlM_cons, add_of_fresh policy fresh, Except.ok_bind, ih others, List.append_assoc]
    rfl

theorem parse_of_distinct {raw : List Binding} (isBindings : IsBindings ts raw)
    (room : ∀ b ∈ raw, b.value.depth ≤ rules.maxDepth)
    (distinct : (raw.map Binding.name).Nodup) : parse rules ts = .ok raw := by
  rw [parse_of_isBindings isBindings room]
  exact foldlM_add_of_distinct rules.duplicates distinct

end Bindlang.Parser
