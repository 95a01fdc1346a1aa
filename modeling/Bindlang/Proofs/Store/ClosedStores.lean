import Bindlang.Accessor
import Bindlang.Proofs.Data.KeyedLists
import Bindlang.Proofs.Store.Trees
import Mathlib.Logic.Relation

namespace Bindlang

namespace Store

/-- Scalars, functions, and handles of containers that are there. -/
def Has (s : Store) : Value → Prop
  | .array ref => ref.index < s.arrays.size
  | .object ref => ref.index < s.objects.size
  | _ => True

instance (s : Store) : (v : Value) → Decidable (s.Has v)
  | .array ref => inferInstanceAs (Decidable (ref.index < s.arrays.size))
  | .object ref => inferInstanceAs (Decidable (ref.index < s.objects.size))
  | .undefined | .null | .boolean _ | .integer _ | .float _ | .string _ | .function _ =>
    inferInstanceAs (Decidable True)

def HasAllOf (s : Store) : HostFunction → Prop
  | .counter _ => True
  | .reply value pushed set =>
    s.Has value ∧ (∀ target item, pushed = some (target, item) → s.Has target ∧ s.Has item) ∧
      ∀ target key item, set = some (target, key, item) → s.Has target ∧ s.Has item

/-- A store in which every handle leads to a container. -/
structure Closed (s : Store) : Prop where
  arrays : ∀ (i : Nat) items, s.arrays[i]? = some items → ∀ v ∈ items, s.Has v
  objects : ∀ (i : Nat) fields, s.objects[i]? = some fields → ∀ field ∈ fields.entries, s.Has field.2
  functions : ∀ (i : Nat) f, s.functions[i]? = some f → s.HasAllOf f

/-- All containers of a store are still there, whatever they hold now. -/
structure Retains (s s' : Store) : Prop where
  arrays : s.arrays.size ≤ s'.arrays.size
  objects : s.objects.size ≤ s'.objects.size

variable {s s' s'' : Store} {v new : Value} {key : String}

theorem Retains.refl (s : Store) : s.Retains s :=
  ⟨Nat.le_refl _, Nat.le_refl _⟩

theorem Retains.trans (first : s.Retains s') (second : s'.Retains s'') : s.Retains s'' :=
  ⟨Nat.le_trans first.arrays second.arrays, Nat.le_trans first.objects second.objects⟩

theorem Extends.retains (grows : s.Extends s') : s.Retains s' :=
  ⟨Array.size_le_of_getElem? grows.arrays, Array.size_le_of_getElem? grows.objects⟩

theorem Has.retain (has : s.Has v) (retains : s.Retains s') : s'.Has v := by
  cases v with
  | array ref => exact Nat.lt_of_lt_of_le has retains.arrays
  | object ref => exact Nat.lt_of_lt_of_le has retains.objects
  | _ => trivial

theorem HasAllOf.retain {f : HostFunction} (has : s.HasAllOf f) (retains : s.Retains s') :
    s'.HasAllOf f := by
  cases f with
  | counter => trivial
  | reply value pushed set =>
    obtain ⟨hasValue, hasPushed, hasSet⟩ := has
    refine ⟨hasValue.retain retains, ?_, ?_⟩
    · intro target item same
      exact (hasPushed target item same).imp (·.retain retains) (·.retain retains)
    · intro target key item same
      exact (hasSet target key item same).imp (·.retain retains) (·.retain retains)

theorem Closed.has_member (closed : s.Closed) {member : Value}
    (found : s.member? v key = some member) : s.Has member := by
  cases v with
  | array ref =>
    obtain ⟨i, _, found⟩ := Option.bind_eq_some_iff.1 found
    unfold items at found
    cases here : s.arrays[ref.index]? with
    | none => simp [here] at found
    | some items =>
      rw [here, Option.getD_some] at found
      exact closed.arrays ref.index items here member (List.mem_of_getElem? found)
  | object ref =>
    obtain ⟨field, inside, rfl⟩ := Option.map_eq_some_iff.1 found
    unfold Store.fields at inside
    cases here : s.objects[ref.index]? with
    | none => simp [here, Fields.empty, Keyed.find?] at inside
    | some fields =>
      rw [here, Option.getD_some] at inside
      exact closed.objects ref.index fields here field (List.mem_of_find?_eq_some inside)
  | _ => cases found

theorem retains_newArray (s : Store) (items : List Value) : s.Retains (newArray items s).2 :=
  (extends_newArray s items).retains

theorem retains_newObject (s : Store) (fields : Fields Value) :
    s.Retains (newObject fields s).2 :=
  (extends_newObject s fields).retains

theorem has_newArray (s : Store) (items : List Value) :
    (newArray items s).2.Has (newArray items s).1 := by
  simp [Has, newArray]

theorem has_newObject (s : Store) (fields : Fields Value) :
    (newObject fields s).2.Has (newObject fields s).1 := by
  simp [Has, newObject]

theorem retains_setField (s : Store) (v : Value) (key : String) (new : Value) :
    s.Retains (s.setField v key new) := by
  cases v with
  | object ref => exact ⟨Nat.le_refl _, by simp [setField]⟩
  | _ => exact .refl s

theorem retains_pushItem (s : Store) (v new : Value) : s.Retains (s.pushItem v new) := by
  cases v with
  | array ref => exact ⟨by simp [pushItem], Nat.le_refl _⟩
  | _ => exact .refl s

theorem Closed.newArray {items : List Value} (closed : s.Closed) (has : ∀ v ∈ items, s.Has v) :
    (newArray items s).2.Closed := by
  have retains := retains_newArray s items
  refine ⟨?_, ?_, ?_⟩
  · intro i others here v member
    rcases Array.getElem?_push_cases here with old | rfl
    · exact (closed.arrays i others old v member).retain retains
    · exact (has v member).retain retains
  · intro i fields here field member
    exact (closed.objects i fields here field member).retain retains
  · intro i f here
    exact (closed.functions i f here).retain retains

theorem Closed.newObject {fields : Fields Value} (closed : s.Closed)
    (has : ∀ field ∈ fields.entries, s.Has field.2) : (newObject fields s).2.Closed := by
  have retains := retains_newObject s fields
  refine ⟨?_, ?_, ?_⟩
  · intro i items here v member
    exact (closed.arrays i items here v member).retain retains
  · intro i others here field member
    rcases Array.getElem?_push_cases here with old | rfl
    · exact (closed.objects i others old field member).retain retains
    · exact (has field member).retain retains
  · intro i f here
    exact (closed.functions i f here).retain retains

theorem Closed.newFunction {f : HostFunction} (closed : s.Closed) (has : s.HasAllOf f) :
    (newFunction f s).2.Closed := by
  refine ⟨closed.arrays, closed.objects, ?_⟩
  intro i g here
  rcases Array.getElem?_push_cases here with old | rfl
  · exact closed.functions i g old
  · exact has

theorem Closed.setField (closed : s.Closed) (has : s.Has new) (v : Value) (key : String) :
    (s.setField v key new).Closed := by
  have retains := retains_setField s v key new
  cases v with
  | object ref =>
    refine ⟨?_, ?_, ?_⟩
    · intro i items here v member
      exact (closed.arrays i items here v member).retain retains
    · intro i fields here field member
      rcases Array.getElem?_modify_cases here with old | ⟨others, old, rfl⟩
      · exact (closed.objects i fields old field member).retain retains
      · rcases Keyed.mem_of_mem_put member with rfl | before
        · exact has.retain retains
        · exact (closed.objects i others old field before).retain retains
    · intro i f here
      exact (closed.functions i f here).retain retains
  | _ => exact closed

theorem Closed.pushItem (closed : s.Closed) (has : s.Has new) (v : Value) :
    (s.pushItem v new).Closed := by
  have retains := retains_pushItem s v new
  cases v with
  | array ref =>
    refine ⟨?_, ?_, ?_⟩
    · intro i items here v member
      rcases Array.getElem?_modify_cases here with old | ⟨others, old, rfl⟩
      · exact (closed.arrays i items old v member).retain retains
      · rcases List.mem_append.1 member with before | last
        · exact (closed.arrays i others old v before).retain retains
        · rw [List.mem_singleton.1 last]
          exact has.retain retains
    · intro i fields here field member
      exact (closed.objects i fields here field member).retain retains
    · intro i f here
      exact (closed.functions i f here).retain retains
  | _ => exact closed

/-- Nothing is gone, every handle leads somewhere, and the store has the values given. -/
structure Leaves (s : Store) (values : List Value) (s' : Store) : Prop where
  retains : s.Retains s'
  closed : s'.Closed
  has : ∀ v ∈ values, s'.Has v

theorem Leaves.nothing (closed : s.Closed) : s.Leaves [] s :=
  ⟨.refl s, closed, List.forall_mem_nil _⟩

theorem Leaves.value (closed : s.Closed) (has : s.Has v) : s.Leaves [v] s :=
  ⟨.refl s, closed, List.forall_mem_singleton.2 has⟩

theorem Leaves.cons {values : List Value} (first : s.Leaves [v] s')
    (others : s'.Leaves values s'') : s.Leaves (v :: values) s'' :=
  ⟨first.retains.trans others.retains, others.closed,
    List.forall_mem_cons.2 ⟨(first.has v List.mem_cons_self).retain others.retains, others.has⟩⟩

theorem leaves_invoke (closed : s.Closed) {f : HostFunction} (has : s.HasAllOf f)
    (ref : FunctionRef) : s.Leaves [(s.invoke ref f).1] (s.invoke ref f).2 := by
  cases f with
  | counter next =>
    refine ⟨⟨Nat.le_refl _, Nat.le_refl _⟩, ⟨closed.arrays, closed.objects, ?_⟩, ?_⟩
    · intro i g here
      change (s.functions.setIfInBounds ref.index (.counter (next + 1)))[i]? = some g at here
      rw [Array.getElem?_setIfInBounds] at here
      split at here
      · split at here
        · cases here
          trivial
        · cases here
      · exact closed.functions i g here
    · exact List.forall_mem_singleton.2 trivial
  | reply value pushed set =>
    obtain ⟨hasValue, hasPushed, hasSet⟩ := has
    -- The push comes first, and the field is set in the store that it leaves.
    let behindPush := pushed.elim s fun both => s.pushItem both.1 both.2
    have first : s.Retains behindPush ∧ behindPush.Closed := by
      cases pushed with
      | none => exact ⟨.refl s, closed⟩
      | some both =>
        obtain ⟨target, item⟩ := both
        exact ⟨retains_pushItem s target item, closed.pushItem (hasPushed target item rfl).2 target⟩
    have second : behindPush.Retains (s.invoke ref (.reply value pushed set)).2 ∧
        (s.invoke ref (.reply value pushed set)).2.Closed := by
      cases set with
      | none => exact ⟨.refl behindPush, first.2⟩
      | some all =>
        obtain ⟨target, key, item⟩ := all
        have hasItem := (hasSet target key item rfl).2.retain first.1
        exact ⟨retains_setField behindPush target key item, first.2.setField hasItem target key⟩
    have retains := first.1.trans second.1
    exact ⟨retains, second.2, List.forall_mem_singleton.2 (hasValue.retain retains)⟩

theorem leaves_call (closed : s.Closed) (v : Value) :
    s.Leaves (call v s).1.toList (call v s).2 := by
  cases v with
  | function ref =>
    unfold call
    cases here : s.functions[ref.index]? with
    | none => simpa [here] using Leaves.nothing closed
    | some f => simpa [here] using leaves_invoke closed (closed.functions ref.index f here) ref
  | _ => exact .nothing closed

end Store

open Store

variable {s s' : Store} {scope : Scope}

theorem Segment.leaves_follow (closed : s.Closed) (segment : Segment) (v : Value) :
    s.Leaves (segment.follow? v s).1.toList (segment.follow? v s).2 := by
  rw [segment.follow_eq]
  cases found : s.member? v segment.name with
  | none => exact .nothing closed
  | some member =>
    cases segment.invoked with
    | false => exact .value closed (closed.has_member found)
    | true => exact leaves_call closed member

theorem Path.leaves_walk (closed : s.Closed) (path : Path) {v : Value} (has : s.Has v) :
    s.Leaves (path.walk? v s).1.toList (path.walk? v s).2 := by
  induction path generalizing s v with
  | nil => exact .value closed has
  | cons segment path ih =>
    have first := segment.leaves_follow closed v
    rw [walk_cons]
    cases reached : segment.follow? v s with
    | mk next s' =>
      rw [reached] at first
      cases next with
      | none => exact first
      | some next =>
        have others := ih first.closed (first.has next (List.mem_singleton_self next))
        exact ⟨first.retains.trans others.retains, others.closed, others.has⟩

structure Scope.Within (scope : Scope) (s : Store) : Prop where
  primary : s.Has scope.primary
  extra : ∀ extra ∈ scope.extra, s.Has extra

theorem Scope.Within.retain (within : scope.Within s) (retains : s.Retains s') :
    scope.Within s' :=
  ⟨within.primary.retain retains, fun extra given => (within.extra extra given).retain retains⟩

theorem Scope.Within.has_root (within : scope.Within s) (t : Store) (name : String) :
    s.Has (scope.root t name) := by
  unfold root
  split
  · cases given : scope.extra with
    | none => exact within.primary
    | some extra => exact within.extra extra given
  · exact within.primary

namespace Expression

/-- The items of an array, the entries of an object and the bindings of a set are one loop. -/
def evaluateEach {α : Type} (scope : Scope) :
    List (α × Expression) → StateM Store (List (α × Option Value))
  | [] => return []
  | (label, e) :: labelled => do
    let outcome ← e.evaluate? scope
    return (label, outcome) :: (← evaluateEach scope labelled)

theorem evaluateEach_cons {α : Type} (scope : Scope) (label : α) (e : Expression)
    (labelled : List (α × Expression)) (s : Store) :
    evaluateEach scope ((label, e) :: labelled) s =
      ((label, (e.evaluate? scope s).1) :: (evaluateEach scope labelled (e.evaluate? scope s).2).1,
        (evaluateEach scope labelled (e.evaluate? scope s).2).2) := rfl

def unlabelled (items : List Expression) : List (Unit × Expression) :=
  items.map ((), ·)

theorem forall_unlabelled {Holds : Expression → Prop} {items : List Expression}
    (each : ∀ item ∈ items, Holds item) : ∀ part ∈ unlabelled items, Holds part.2 :=
  List.forall_mem_map.2 each

theorem evaluateItems_eq (scope : Scope) (items : List Expression) (s : Store) :
    evaluateItems scope items s =
      ((evaluateEach scope (unlabelled items) s).1.map fun part => part.2.getD .undefined,
        (evaluateEach scope (unlabelled items) s).2) := by
  induction items generalizing s with
  | nil => rfl
  | cons item items ih =>
    unfold unlabelled at ih ⊢
    rw [evaluateItems_cons, ih, List.map_cons, evaluateEach_cons, List.map_cons]

theorem evaluateEntries_eq (scope : Scope) (entries : List (String × Expression)) (s : Store) :
    evaluateEntries scope entries s =
      ((evaluateEach scope entries s).1.map fun part => (part.1, part.2.getD .undefined),
        (evaluateEach scope entries s).2) := by
  induction entries generalizing s with
  | nil => rfl
  | cons entry entries ih => rw [evaluateEntries_cons, ih, evaluateEach_cons, List.map_cons]

def LeavesClosed (scope : Scope) (e : Expression) : Prop :=
  ∀ s : Store, s.Closed → scope.Within s →
    s.Leaves (e.evaluate? scope s).1.toList (e.evaluate? scope s).2

theorem LeavesClosed.orUndefined {e : Expression} (leaves : LeavesClosed scope e)
    (closed : s.Closed) (within : scope.Within s) :
    s.Leaves [(e.evaluate? scope s).1.getD .undefined] (e.evaluate? scope s).2 := by
  have left := leaves s closed within
  cases outcome : (e.evaluate? scope s).1 with
  | none => exact ⟨left.retains, left.closed, List.forall_mem_singleton.2 trivial⟩
  | some v =>
    rw [outcome] at left
    exact left

theorem leaves_each {α : Type} {labelled : List (α × Expression)}
    (each : ∀ part ∈ labelled, LeavesClosed scope part.2) (closed : s.Closed)
    (within : scope.Within s) :
    s.Leaves ((evaluateEach scope labelled s).1.map fun part => part.2.getD .undefined)
      (evaluateEach scope labelled s).2 := by
  induction labelled generalizing s with
  | nil => exact .nothing closed
  | cons part labelled ih =>
    obtain ⟨first, others⟩ := List.forall_mem_cons.1 each
    have left := first.orUndefined closed within
    exact left.cons (ih others left.closed (within.retain left.retains))

theorem leavesClosed (scope : Scope) (e : Expression) : LeavesClosed scope e := by
  induction e using inductionOn with
  | literal l =>
    intro s closed _
    refine .value closed ?_
    cases l <;> trivial
  | array items ih =>
    intro s closed within
    have left := leaves_each (forall_unlabelled ih) closed within
    rw [evaluate_array, evaluateItems_eq]
    exact ⟨left.retains.trans (retains_newArray _ _), left.closed.newArray left.has,
      List.forall_mem_singleton.2 (has_newArray _ _)⟩
  | object entries ih =>
    intro s closed within
    have left := leaves_each ih closed within
    rw [evaluate_object, evaluateEntries_eq]
    refine ⟨left.retains.trans (retains_newObject _ _),
      left.closed.newObject fun field member => ?_, List.forall_mem_singleton.2 (has_newObject _ _)⟩
    obtain ⟨part, inside, rfl⟩ := List.mem_map.1 (Keyed.mem_of_mem_ofList member)
    exact left.has _ (List.mem_map_of_mem inside)
  | path p =>
    intro s closed within
    cases p with
    | nil => exact .nothing closed
    | cons first others => exact Path.leaves_walk closed _ (within.has_root s first.name)

end Expression

def Accessor.Within (s : Store) : Accessor → Prop
  | constant value => s.Has value
  | pluck _ root => s.Has root
  | expression _ scope => scope.Within s

theorem Accessor.leaves_read (closed : s.Closed) {a : Accessor} (within : a.Within s) :
    s.Leaves (a.read? s).1.toList (a.read? s).2 := by
  cases a with
  | constant value => exact .value closed within
  | pluck path root => exact path.leaves_walk closed within
  | expression e scope => exact e.leavesClosed scope s closed within

namespace Store

/-- A host makes containers and functions, changes, calls, and reads accessors. -/
inductive Happens (s : Store) : Store → Prop
  | newArray {items : List Value} (has : ∀ v ∈ items, s.Has v) : Happens s (newArray items s).2
  | newObject {fields : Fields Value} (has : ∀ field ∈ fields.entries, s.Has field.2) :
      Happens s (newObject fields s).2
  | newFunction {f : HostFunction} (has : s.HasAllOf f) : Happens s (newFunction f s).2
  | set {v new : Value} {key : String} (has : s.Has new) : Happens s (s.setField v key new)
  | push {v new : Value} (has : s.Has new) : Happens s (s.pushItem v new)
  | call (v : Value) : Happens s (call v s).2
  | read {a : Accessor} (within : a.Within s) : Happens s (a.read? s).2

theorem closed_empty : empty.Closed :=
  ⟨by simp [empty], by simp [empty], by simp [empty]⟩

theorem Closed.happen (closed : s.Closed) (happens : s.Happens s') : s'.Closed := by
  cases happens with
  | newArray has => exact closed.newArray has
  | newObject has => exact closed.newObject has
  | newFunction has => exact closed.newFunction has
  | set has => exact closed.setField has _ _
  | push has => exact closed.pushItem has _
  | call v => exact (leaves_call closed v).closed
  | read within => exact (Accessor.leaves_read closed within).closed

/-- In a store with any history every handle leads to a container. -/
theorem closed_of_history (history : Relation.ReflTransGen Happens empty s) : s.Closed := by
  induction history with
  | refl => exact closed_empty
  | tail _ happens closed => exact closed.happen happens

end Store

end Bindlang
