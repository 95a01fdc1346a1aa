import Bindlang.Proofs.Parser.Soundness

namespace Bindlang.Parser

def Hole.named (hole : Hole) : String × Position :=
  (hole.name, hole.position)

def Separator.named? : Separator → Option (String × Position)
  | binding => none
  | element hole _ | entry hole _ => some hole.named

def Awaiting.named? : Awaiting → Option (String × Position)
  | bindingName => none
  | bindingColon name position => some (name, position)
  | value hole | firstElement hole | firstKey hole | nextKey hole _ | entryColon hole _ _
  | nameEnd hole _ _ | callEnd hole _ _ | pathEnd hole _ | memberName hole _ => some hole.named
  | separator s => s.named?

/-- The error with which the token `t` is refused, inside the named binding. -/
inductive Refuses (rules : Rules) (named? : Option (String × Position)) (t : Token) :
    ParseError → Prop
  | unexpected {expected : Expected} (other : expected ≠ .number) :
      Refuses rules named? t (.unexpectedToken expected t)
  | unreadable (isNumber : t.kind = .number) (unread : Literal.ofNumber? t.lexeme = none) :
      Refuses rules named? t (.unexpectedToken .number t)
  | tooDeep (opens : t.kind = .leftBracket ∨ t.kind = .leftBrace) :
      Refuses rules named? t (.nestingTooDeep rules.maxDepth t.position)
  | repeated {name : String} {p : Position} (named : named? = some (name, p))
      (rejects : rules.duplicates = .reject) : Refuses rules named? t (.duplicateName name p)

inductive RefusesEnd (policy : DuplicatePolicy) (named? : Option (String × Position)) :
    ParseError → Prop
  | missing (expected : Expected) : RefusesEnd policy named? (.unexpectedEnd expected)
  | repeated {name : String} {p : Position} (named : named? = some (name, p))
      (rejects : policy = .reject) : RefusesEnd policy named? (.duplicateName name p)

variable {rules : Rules} {policy : DuplicatePolicy} {bindings : List Binding} {hole : Hole}
  {t : Token} {e : ParseError} {value : Expression}

theorem eq_of_add_error {b : Binding} (failed : add policy bindings b = .error e) :
    policy = .reject ∧ e = .duplicateName b.name b.position := by
  unfold add at failed
  split at failed
  · rename_i repeated
    cases failed
    exact ⟨repeated.1, rfl⟩
  · cases failed

theorem eq_of_fill_error (failed : fill policy bindings hole value = .error e) :
    policy = .reject ∧ e = .duplicateName hole.name hole.position := by
  unfold fill at failed
  split at failed
  · exact eq_of_add_error (Except.map_eq_error_iff.1 failed)
  · cases failed
  · cases failed

theorem refuses_of_complete (failed : complete rules.duplicates bindings hole value = .error e) :
    Refuses rules (some hole.named) t e := by
  obtain ⟨rejects, rfl⟩ := eq_of_fill_error (Except.map_eq_error_iff.1 failed)
  exact .repeated rfl rejects

theorem refuses_of_take {named? : Option (String × Position)} {kind : TokenKind}
    {expected : Expected} {next : State} (other : expected ≠ .number)
    (failed : (if t.kind = kind then Except.ok next else .error (.unexpectedToken expected t)) =
      .error e) : Refuses rules named? t e := by
  split at failed
  · cases failed
  · cases failed
    exact .unexpected other

theorem refuses_of_beginValue (failed : beginValue rules bindings hole t = .error e) :
    Refuses rules (some hole.named) t e := by
  have tooMany {next : State} (opens : t.kind = .leftBracket ∨ t.kind = .leftBrace)
      (failed : openContainer rules.maxDepth hole t next = .error e) :
      Refuses rules (some hole.named) t e := by
    unfold openContainer at failed
    split at failed
    · cases failed
      exact .tooDeep opens
    · cases failed
  unfold beginValue at failed
  split at failed
  · exact refuses_of_complete failed
  · rename_i isNumber
    split at failed
    · exact refuses_of_complete failed
    · rename_i unread
      cases failed
      exact .unreadable isNumber unread
  · exact refuses_of_complete failed
  · exact refuses_of_complete failed
  · exact refuses_of_complete failed
  · rename_i opens
    exact tooMany (.inl opens) failed
  · rename_i opens
    exact tooMany (.inr opens) failed
  · cases failed
  · cases failed
    exact .unexpected (by decide)

theorem refuses_of_beginEntry {named? : Option (String × Position)}
    {entries : List (String × Expression)}
    (failed : beginEntry bindings hole entries t = .error e) : Refuses rules named? t e := by
  unfold beginEntry at failed
  split at failed
  · cases failed
  · cases failed
    exact .unexpected (by decide)

theorem refuses_of_separate {separator : Separator}
    (failed : separate rules.duplicates bindings t separator = .error e) :
    Refuses rules separator.named? t e := by
  cases separator with
  | binding => exact refuses_of_take (by decide) failed
  | element hole items | entry hole entries =>
    simp only [separate] at failed
    split at failed
    · cases failed
    · split at failed
      · exact refuses_of_complete failed
      · cases failed
        exact .unexpected (by decide)

theorem named_of_fill {bindings' : List Binding} {separator : Separator} {name : String}
    {p : Position} (filled : fill policy bindings hole value = .ok (bindings', separator))
    (named : separator.named? = some (name, p)) : hole.named = (name, p) := by
  unfold fill at filled
  split at filled
  · obtain ⟨_, _, same⟩ := Except.map_eq_ok_iff.1 filled
    cases same
    cases named
  · cases filled
    exact Option.some.inj named
  · cases filled
    exact Option.some.inj named

theorem refuses_of_leavePath {path : List Segment}
    (failed : leavePath rules.duplicates bindings hole path t = .error e) :
    Refuses rules (some hole.named) t e := by
  rcases Except.bind_eq_error_iff.1 failed with failed | ⟨⟨bindings', separator⟩, filled, failed⟩
  · obtain ⟨rejects, rfl⟩ := eq_of_fill_error failed
    exact .repeated rfl rejects
  · cases refuses_of_separate failed with
    | unexpected other => exact .unexpected other
    | unreadable isNumber unread => exact .unreadable isNumber unread
    | tooDeep opens => exact .tooDeep opens
    | repeated named rejects => exact .repeated (congrArg some (named_of_fill filled named)) rejects

theorem refuses_of_step {s : State} (failed : step rules s t = .error e) :
    Refuses rules s.awaiting.named? t e := by
  obtain ⟨bindings, awaiting⟩ := s
  cases awaiting with
  | bindingName | bindingColon | entryColon | callEnd | memberName =>
    exact refuses_of_take (by decide) failed
  | value hole => exact refuses_of_beginValue failed
  | firstElement hole =>
    simp only [step] at failed
    split at failed
    · exact refuses_of_complete failed
    · have refused : Refuses rules (some (hole.inArray []).named) t e :=
        refuses_of_beginValue failed
      exact refused
  | firstKey hole =>
    simp only [step] at failed
    split at failed
    · exact refuses_of_complete failed
    · exact refuses_of_beginEntry failed
  | nextKey hole entries => exact refuses_of_beginEntry failed
  | nameEnd hole path name =>
    simp only [step] at failed
    split at failed
    · cases failed
    · split at failed
      · cases failed
      · exact refuses_of_leavePath failed
  | pathEnd hole path =>
    simp only [step] at failed
    split at failed
    · cases failed
    · exact refuses_of_leavePath failed
  | separator separator => exact refuses_of_separate failed

theorem refusesEnd_of_endBehind {named? : Option (String × Position)} {separator : Separator}
    (failed : endBehind bindings separator = .error e) : RefusesEnd policy named? e := by
  cases separator <;> cases failed <;> exact .missing _

theorem refusesEnd_of_endPath {path : List Segment}
    (failed : endPath policy bindings hole path = .error e) :
    RefusesEnd policy (some hole.named) e := by
  rcases Except.bind_eq_error_iff.1 failed with failed | ⟨_, _, failed⟩
  · obtain ⟨rejects, rfl⟩ := eq_of_fill_error failed
    exact .repeated rfl rejects
  · exact refusesEnd_of_endBehind failed

theorem refusesEnd_of_finish {s : State} (failed : finish policy s = .error e) :
    RefusesEnd policy s.awaiting.named? e := by
  obtain ⟨bindings, awaiting⟩ := s
  cases awaiting with
  | nameEnd | pathEnd => exact refusesEnd_of_endPath failed
  | separator => exact refusesEnd_of_endBehind failed
  | _ =>
    cases failed
    exact .missing _

theorem exists_step_of_run {s : State} {ts : List Token} (failed : run rules s ts = .error e) :
    ∃ pre t post s', ts = pre ++ t :: post ∧ run rules s pre = .ok s' ∧
      step rules s' t = .error e := by
  induction ts generalizing s with
  | nil => cases failed
  | cons t ts ih =>
    rw [run_cons] at failed
    rcases Except.bind_eq_error_iff.1 failed with here | ⟨s₁, took, behind⟩
    · exact ⟨[], t, ts, s, rfl, rfl, here⟩
    · obtain ⟨pre, u, post, s', rfl, ran, failed⟩ := ih behind
      exact ⟨t :: pre, u, post, s', rfl, by rw [run_cons, took, Except.ok_bind, ran], failed⟩

end Bindlang.Parser
