import Bindlang.Proofs.Accessor.CallFreeReading

namespace Bindlang

/-- A call gives a value, if there is such a function, and may change the store and the host. -/
structure Host (σ : Type) where
  invoke : FunctionRef → StateM (Store × σ) (Option Value)

namespace Host

variable {σ α : Type}

def inStore (action : StateM Store α) : StateM (Store × σ) α := fun (s, own) =>
  ((action s).1, (action s).2, own)

theorem inStore_eq_iff {action : StateM Store α} {s t : Store} {own : σ} {a : α} :
    inStore action (s, own) = (a, t, own) ↔ action s = (a, t) := by
  constructor
  · intro same
    have value : (action s).1 = a := congrArg (fun r : α × Store × σ => r.1) same
    have store : (action s).2 = t := congrArg (fun r : α × Store × σ => r.2.1) same
    exact Prod.ext value store
  · intro same
    rw [inStore, same]

theorem inStore_injective {action other : StateM Store α}
    (same : (inStore action : StateM (Store × Unit) α) = inStore other) : action = other := by
  funext s
  exact inStore_eq_iff.1 (congrFun same (s, ()))

theorem inStore_onward (first : StateM Store (Option Value))
    (next : Value → StateM Store (Option Value)) (s : Store) (own : σ) :
    (match inStore first (s, own) with
      | (none, after) => (none, after)
      | (some v, after) => inStore (next v) after) =
      inStore (fun s => match first s with
        | (none, after) => (none, after)
        | (some v, after) => next v after) (s, own) := by
  cases outcome : first s with
  | mk found after =>
    rw [inStore_eq_iff.2 outcome, inStore, outcome]
    cases found with
    | none => rfl
    | some v => rfl

def ofStore : Host σ :=
  ⟨fun ref => inStore (Store.call (.function ref))⟩

section Reading

variable (host : Host σ)

def call : Value → StateM (Store × σ) (Option Value)
  | .function ref => host.invoke ref
  | _ => return none

def follow? (segment : Segment) (v : Value) : StateM (Store × σ) (Option Value) := fun state =>
  match state.1.member? v segment.name with
  | none => (none, state)
  | some member => if segment.invoked then host.call member state else (some member, state)

def walk? : Path → Value → StateM (Store × σ) (Option Value)
  | [], v => return some v
  | segment :: path, v => fun state =>
    match host.follow? segment v state with
    | (none, state) => (none, state)
    | (some next, state) => walk? path next state

mutual

def evaluate? (scope : Scope) : Expression → StateM (Store × σ) (Option Value)
  | .literal l => return some l.value
  | .array items => do some <$> inStore (Store.newArray (← evaluateItems scope items))
  | .object entries => do
    some <$> inStore (Store.newObject (.ofList (← evaluateEntries scope entries)))
  | .path [] => return none
  | .path (first :: others) => fun state =>
    host.walk? (first :: others) (scope.root state.1 first.name) state

def evaluateItems (scope : Scope) : List Expression → StateM (Store × σ) (List Value)
  | [] => return []
  | item :: items => do
    let value ← evaluate? scope item
    return value.getD .undefined :: (← evaluateItems scope items)

def evaluateEntries (scope : Scope) :
    List (String × Expression) → StateM (Store × σ) (List (String × Value))
  | [] => return []
  | (key, item) :: entries => do
    let value ← evaluate? scope item
    return (key, value.getD .undefined) :: (← evaluateEntries scope entries)

end

def read? : Accessor → StateM (Store × σ) (Option Value)
  | .constant value => return some value
  | .pluck path root => host.walk? path root
  | .expression e scope => host.evaluate? scope e

end Reading

variable {host : Host σ} {scope : Scope} {p : Path} {e : Expression} {items : List Expression}
  {entries : List (String × Expression)}

def FollowsInStore (host : Host σ) (segment : Segment) : Prop :=
  ∀ v, host.follow? segment v = inStore (segment.follow? v)

theorem follow_ofStore (segment : Segment) : (ofStore : Host σ).FollowsInStore segment := by
  intro v
  funext ⟨s, own⟩
  rw [inStore, segment.follow_eq]
  unfold follow?
  cases s.member? v segment.name with
  | none => rfl
  | some member =>
    cases segment.invoked with
    | false => rfl
    | true => cases member <;> rfl

theorem follow_of_uncalled {segment : Segment} (uncalled : segment.invoked = false) :
    host.FollowsInStore segment := by
  intro v
  funext ⟨s, own⟩
  rw [inStore, segment.follow_eq, uncalled]
  unfold follow?
  rw [uncalled]
  cases s.member? v segment.name <;> rfl

theorem walk_inStore (same : ∀ segment ∈ p, host.FollowsInStore segment) (v : Value) :
    host.walk? p v = inStore (p.walk? v) := by
  funext ⟨s, own⟩
  induction p generalizing v s with
  | nil => rfl
  | cons segment path ih =>
    obtain ⟨first, others⟩ := List.forall_mem_cons.1 same
    unfold walk?
    rw [first, inStore, inStore, Path.walk_cons]
    obtain ⟨next, s'⟩ := segment.follow? v s
    cases next with
    | none => rfl
    | some next => exact ih others next s'

def EvaluatesInStore (host : Host σ) (scope : Scope) (e : Expression) : Prop :=
  host.evaluate? scope e = inStore (e.evaluate? scope)

theorem evaluateItems_inStore (each : ∀ item ∈ items, host.EvaluatesInStore scope item) :
    host.evaluateItems scope items = inStore (Expression.evaluateItems scope items) := by
  induction items with
  | nil => rfl
  | cons item items ih =>
    obtain ⟨first, others⟩ := List.forall_mem_cons.1 each
    rw [evaluateItems, first, ih others]
    rfl

theorem evaluateEntries_inStore (each : ∀ entry ∈ entries, host.EvaluatesInStore scope entry.2) :
    host.evaluateEntries scope entries = inStore (Expression.evaluateEntries scope entries) := by
  induction entries with
  | nil => rfl
  | cons entry entries ih =>
    obtain ⟨first, others⟩ := List.forall_mem_cons.1 each
    rw [evaluateEntries, first, ih others]
    rfl

/-- Only where a path calls something one host differs from another. -/
theorem evaluate_inStore (same : ∀ p ∈ e.paths, ∀ segment ∈ p, host.FollowsInStore segment) :
    host.EvaluatesInStore scope e := by
  induction e using Expression.inductionOn with
  | literal => rfl
  | array items ih =>
    have each := Expression.forall_paths_array.1 same
    rw [EvaluatesInStore, evaluate?,
      evaluateItems_inStore fun item member => ih item member (each item member)]
    rfl
  | object entries ih =>
    have each := Expression.forall_paths_object.1 same
    rw [EvaluatesInStore, evaluate?,
      evaluateEntries_inStore fun entry member => ih entry member (each entry member)]
    rfl
  | path p =>
    cases p with
    | nil => rfl
    | cons first others =>
      have walks := walk_inStore (Expression.forall_paths_path.1 same)
      funext ⟨s, own⟩
      exact congrFun (walks (scope.root s first.name)) (s, own)

theorem evaluate_of_callFree (callFree : e.CallFree) :
    host.evaluate? scope e = inStore (e.evaluate? scope) :=
  evaluate_inStore fun p member segment inside =>
    follow_of_uncalled (callFree p member segment inside)

theorem call_ofStore (v : Value) : (ofStore : Host σ).call v = inStore (Store.call v) := by
  cases v <;> rfl

theorem walk_ofStore (p : Path) (v : Value) : (ofStore : Host σ).walk? p v = inStore (p.walk? v) :=
  walk_inStore (fun segment _ => follow_ofStore segment) v

theorem read_ofStore (a : Accessor) : (ofStore : Host σ).read? a = inStore a.read? := by
  cases a with
  | constant => rfl
  | pluck path root => exact walk_ofStore path root
  | expression e scope => exact evaluate_inStore fun _ _ segment _ => follow_ofStore segment

end Host

/-- They find the same and leave the same behind, whatever is called on the way. -/
def Accessor.ReadsLike (a b : Accessor) : Prop :=
  ∀ (σ : Type) (host : Host σ), host.read? a = host.read? b

theorem Accessor.ReadsLike.read_eq {a b : Accessor} (same : a.ReadsLike b) : a.read? = b.read? := by
  have both := same Unit .ofStore
  rw [Host.read_ofStore, Host.read_ofStore] at both
  exact Host.inStore_injective both

end Bindlang
