import Bindlang.Path
import Bindlang.Store

namespace Bindlang

/-- The member that a segment names, or what it returns when it is called. -/
def Segment.follow? (segment : Segment) (v : Value) : StateM Store (Option Value) := do
  match (← get).member? v segment.name with
  | none => return none
  | some member => if segment.invoked then Store.call member else return some member

def Path.walk? : Path → Value → StateM Store (Option Value)
  | [], v => return some v
  | segment :: path, v => do
    match ← segment.follow? v with
    | none => return none
    | some next => walk? path next

variable (segment : Segment) (path : Path) (v : Value) (s : Store)

theorem Segment.follow_eq :
    segment.follow? v s =
      match s.member? v segment.name with
      | none => (none, s)
      | some member => if segment.invoked then Store.call member s else (some member, s) := by
  change (match s.member? v segment.name with
    | none => pure none
    | some member => if segment.invoked then Store.call member else pure (some member) :
      StateM Store (Option Value)) s = _
  cases s.member? v segment.name with
  | none => rfl
  | some member => cases segment.invoked <;> rfl

theorem Path.walk_cons :
    walk? (segment :: path) v s =
      match segment.follow? v s with
      | (none, s') => (none, s')
      | (some next, s') => walk? path next s' := by
  change (match (segment.follow? v s).1 with
    | none => pure none
    | some next => walk? path next : StateM Store (Option Value)) (segment.follow? v s).2 = _
  obtain ⟨next, s'⟩ := segment.follow? v s
  cases next <;> rfl

end Bindlang
