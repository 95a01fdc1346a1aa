import Bindlang.Proofs.Accessor.CallLog
import Bindlang.Proofs.Path.Text

namespace Bindlang

namespace Host

variable {σ : Type}

theorem walk_cons (host : Host σ) (segment : Segment) (path : Path) (v : Value) (state : Store × σ) :
    host.walk? (segment :: path) v state =
      match host.follow? segment v state with
      | (none, after) => (none, after)
      | (some next, after) => host.walk? path next after := rfl

theorem callsAlong_cons (host : Host σ) (segment : Segment) (path : Path) (v : Value)
    (state : Store × σ) :
    host.callsAlong (segment :: path) v state =
      called segment v state.1 ++
        match host.follow? segment v state with
        | (none, _) => []
        | (some next, after) => host.callsAlong path next after := by
  rw [callsAlong]
  cases host.follow? segment v state with
  | mk next after => cases next <;> rfl

theorem walk_append (host : Host σ) (p q : Path) (v : Value) (state : Store × σ) :
    host.walk? (p ++ q) v state =
      match host.walk? p v state with
      | (none, after) => (none, after)
      | (some next, after) => host.walk? q next after := by
  induction p generalizing v state with
  | nil => rfl
  | cons segment path ih =>
    rw [List.cons_append, walk_cons, walk_cons]
    cases host.follow? segment v state with
    | mk next after =>
      cases next with
      | none => rfl
      | some next => exact ih next after

theorem callsAlong_append (host : Host σ) (p q : Path) (v : Value) (state : Store × σ) :
    host.callsAlong (p ++ q) v state =
      host.callsAlong p v state ++
        match host.walk? p v state with
        | (none, _) => []
        | (some next, after) => host.callsAlong q next after := by
  induction p generalizing v state with
  | nil => rfl
  | cons segment path ih =>
    rw [List.cons_append, callsAlong_cons, callsAlong_cons, walk_cons, List.append_assoc]
    cases host.follow? segment v state with
    | mk next after =>
      cases next with
      | none => rfl
      | some next => exact congrArg _ (ih next after)

theorem read_ofPath_append (host : Host σ) (before behind : String) (root : Value)
    (state : Store × σ) :
    host.read? (.ofPath (before ++ "." ++ behind) root) state =
      match host.read? (.ofPath before root) state with
      | (none, after) => (none, after)
      | (some v, after) => host.read? (.ofPath behind v) after := by
  rw [Accessor.ofPath, Path.ofText_append_dot]
  exact walk_append host (.ofText before) (.ofText behind) root state

theorem calls_ofPath_append (host : Host σ) (before behind : String) (root : Value)
    (state : Store × σ) :
    host.calls (.ofPath (before ++ "." ++ behind) root) state =
      host.calls (.ofPath before root) state ++
        match host.read? (.ofPath before root) state with
        | (none, _) => []
        | (some v, after) => host.calls (.ofPath behind v) after := by
  simp only [Accessor.ofPath, calls_pluck, Path.ofText_append_dot]
  exact callsAlong_append host (.ofText before) (.ofText behind) root state

end Host

theorem Accessor.read_ofPath_append (before behind : String) (root : Value) (s : Store) :
    (ofPath (before ++ "." ++ behind) root).read? s =
      match (ofPath before root).read? s with
      | (none, after) => (none, after)
      | (some v, after) => (ofPath behind v).read? after := by
  have read := (Host.ofStore : Host Unit).read_ofPath_append before behind root (s, ())
  simp only [Host.read_ofStore] at read
  exact Host.inStore_eq_iff.1 (read.trans (Host.inStore_onward _ _ s ()))

/-- Plucking by two texts with a dot between them is plucking by one and then by the other. -/
theorem Host.pluck_in_parts {σ : Type} (host : Host σ) (before behind : String) (root : Value) :
    (∀ state, host.read? (.ofPath (before ++ "." ++ behind) root) state =
      match host.read? (.ofPath before root) state with
      | (none, after) => (none, after)
      | (some v, after) => host.read? (.ofPath behind v) after) ∧
    (∀ s, (Accessor.ofPath (before ++ "." ++ behind) root).read? s =
      match (Accessor.ofPath before root).read? s with
      | (none, after) => (none, after)
      | (some v, after) => (Accessor.ofPath behind v).read? after) ∧
    ∀ state, host.calls (.ofPath (before ++ "." ++ behind) root) state =
      host.calls (.ofPath before root) state ++
        match host.read? (.ofPath before root) state with
        | (none, _) => []
        | (some v, after) => host.calls (.ofPath behind v) after :=
  ⟨host.read_ofPath_append before behind root, Accessor.read_ofPath_append before behind root,
    host.calls_ofPath_append before behind root⟩

example :
    let root := Value.object ⟨0⟩
    let setter : HostFunction := .reply root none (some (root, "x", .integer 1))
    let s : Store := ⟨#[], #[.ofList [("f", .function ⟨0⟩)]], #[setter]⟩
    ((Accessor.ofPath "x" root).read? s).1 = none ∧
      ((Accessor.ofPath "f().x" root).read? s).1 = some (.integer 1) := by
  decide +kernel

end Bindlang
