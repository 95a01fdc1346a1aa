import Bindlang.Proofs.Store.ClosedStores
import Mathlib.Data.Fintype.EquivFin
import Mathlib.Data.Set.Finite.List
import Mathlib.Order.WellFounded

namespace Bindlang.Store

open Relation

/-- What a value holds: the items of an array, the values of the fields of an object. -/
def held (s : Store) : Value → List Value
  | .array ref => s.items ref
  | .object ref => (s.fields ref).entries.map Prod.snd
  | _ => []

def Holds (s : Store) (v w : Value) : Prop :=
  w ∈ s.held v

def Reaches (s : Store) : Value → Value → Prop :=
  ReflTransGen s.Holds

variable {s : Store} {v w : Value} {t : Tree}

theorem held_array {ref : ArrayRef} {items : List Value}
    (here : s.arrays[ref.index]? = some items) : s.held (.array ref) = items := by
  rw [held, Store.items, here, Option.getD_some]

theorem held_object {ref : ObjectRef} {fields : Fields Value}
    (here : s.objects[ref.index]? = some fields) :
    s.held (.object ref) = fields.entries.map Prod.snd := by
  rw [held, Store.fields, here, Option.getD_some]

theorem mem_containers_of_holds (holds : s.Holds v w) : v ∈ s.containers := by
  cases v with
  | array ref =>
    cases here : s.arrays[ref.index]? with
    | none => simp [Holds, held, Store.items, here] at holds
    | some items => exact array_mem_containers here
  | object ref =>
    cases here : s.objects[ref.index]? with
    | none => simp [Holds, held, Store.fields, here, Fields.empty] at holds
    | some fields => exact object_mem_containers here
  | _ => cases holds

theorem Closed.has_held (closed : s.Closed) (holds : s.Holds v w) : s.Has w := by
  rcases List.mem_append.1 (mem_containers_of_holds holds) with isArray | isObject
  · obtain ⟨i, inside, rfl⟩ := List.mem_map.1 isArray
    have here := Array.getElem?_eq_getElem (List.mem_range.1 inside)
    rw [Holds, held_array here] at holds
    exact closed.arrays i _ here w holds
  · obtain ⟨i, inside, rfl⟩ := List.mem_map.1 isObject
    have here := Array.getElem?_eq_getElem (List.mem_range.1 inside)
    rw [Holds, held_object here] at holds
    obtain ⟨field, member, rfl⟩ := List.mem_map.1 holds
    exact closed.objects i _ here field member

theorem Closed.has_reached (closed : s.Closed) (has : s.Has v) (reaches : s.Reaches v w) : s.Has w := by
  cases reaches with
  | refl => exact has
  | tail _ holds => exact closed.has_held holds

theorem Unfolds.has (unfolds : s.Unfolds v t) : s.Has v := by
  cases unfolds with
  | array here each => exact (Array.getElem?_eq_some_iff.1 here).1
  | object here entries each => exact (Array.getElem?_eq_some_iff.1 here).1
  | _ => trivial

theorem Unfolds.held (unfolds : s.Unfolds v t) (holds : s.Holds v w) :
    ∃ u, s.Unfolds w u ∧ u.depth < t.depth := by
  cases unfolds with
  | @array ref members here each =>
    rw [Holds, held_array here] at holds
    obtain ⟨m, member, rfl⟩ := List.mem_map.1 holds
    rw [Tree.depth_array]
    exact ⟨m.2, each m member, Nat.lt_succ_of_le (List.le_greatest (List.mem_map_of_mem member))⟩
  | @object ref fields members here entries each =>
    rw [Holds, held_object here, entries, List.map_map] at holds
    obtain ⟨m, member, rfl⟩ := List.mem_map.1 holds
    have inside : (m.1, m.2.2) ∈ members.map fun m => (m.1, m.2.2) := List.mem_map_of_mem member
    have shallow := @List.le_greatest _ (fun field : String × Tree => field.2.depth) _ _ inside
    rw [Tree.depth_object]
    exact ⟨m.2.2, each m member, Nat.lt_succ_of_le shallow⟩
  | _ => cases holds

theorem Unfolds.inside (unfolds : s.Unfolds v t) (inside : TransGen s.Holds v w) :
    ∃ u, s.Unfolds w u ∧ u.depth < t.depth := by
  induction inside with
  | single holds => exact unfolds.held holds
  | tail _ holds ih =>
    obtain ⟨u, unfolds, less⟩ := ih
    obtain ⟨u', unfolds', less'⟩ := unfolds.held holds
    exact ⟨u', unfolds', Nat.lt_trans less' less⟩

theorem Acyclic.reached (acyclic : s.Acyclic v) (reaches : s.Reaches v w) : s.Acyclic w := by
  rcases reflTransGen_iff_eq_or_transGen.1 reaches with rfl | inside
  · exact acyclic
  · obtain ⟨u, unfolds, _⟩ := acyclic.unfolds.inside inside
    exact ⟨u, unfolds⟩

theorem Acyclic.not_inside_self (acyclic : s.Acyclic v) : ¬TransGen s.Holds v v := by
  intro inside
  obtain ⟨u, unfolds, less⟩ := acyclic.unfolds.inside inside
  rw [unfolds.tree_eq] at less
  exact Nat.lt_irrefl _ less

theorem acyclic_of_held (has : s.Has v) (each : ∀ w, s.Holds v w → s.Acyclic w) : s.Acyclic v := by
  cases v with
  | undefined => exact ⟨_, .undefined⟩
  | null => exact ⟨_, .null⟩
  | boolean b => exact ⟨_, .boolean b⟩
  | integer n => exact ⟨_, .integer n⟩
  | float x => exact ⟨_, .float x⟩
  | string t => exact ⟨_, .string t⟩
  | function ref => exact ⟨_, .function ref⟩
  | array ref =>
    have here := Array.getElem?_eq_getElem has
    unfold Holds at each
    rw [held_array here] at each
    refine ⟨_, @Unfolds.array s ref (s.arrays[ref.index].map fun v => (v, s.tree v)) ?_ ?_⟩
    · rw [here, List.map_map]
      exact congrArg some (List.map_id _).symm
    · exact List.forall_mem_map.2 fun v member => (each v member).unfolds
  | object ref =>
    have here := Array.getElem?_eq_getElem has
    unfold Holds at each
    rw [held_object here] at each
    refine ⟨_, @Unfolds.object s ref _ (s.objects[ref.index].entries.map fun field =>
      (field.1, field.2, s.tree field.2)) here ?_ ?_⟩
    · rw [List.map_map]
      exact (List.map_id _).symm
    · exact List.forall_mem_map.2 fun field member =>
        (each field.2 (List.mem_map_of_mem member)).unfolds

/-- There are only so many containers, so each way into them ends if none is inside itself. -/
theorem wellFounded_inside (noCycle : ∀ w, s.Reaches v w → ¬TransGen s.Holds w w) :
    WellFounded fun a b : {w // w ∈ s.containers ∧ s.Reaches v w} => TransGen s.Holds b a := by
  have : Finite {w // w ∈ s.containers ∧ s.Reaches v w} :=
    (s.containers.finite_toSet.subset fun w both => both.1).to_subtype
  have : IsTrans {w // w ∈ s.containers ∧ s.Reaches v w} fun a b => TransGen s.Holds b a :=
    ⟨fun a b c first second => second.trans first⟩
  have : Std.Irrefl fun a b : {w // w ∈ s.containers ∧ s.Reaches v w} => TransGen s.Holds b a :=
    ⟨fun a => noCycle a a.2.2⟩
  exact Finite.wellFounded_of_trans_of_irrefl _

/-- A value has a tree behind it if and only if it leads to no container inside itself. -/
theorem Closed.acyclic_iff (closed : s.Closed) :
    s.Acyclic v ↔ s.Has v ∧ ∀ w, s.Reaches v w → ¬TransGen s.Holds w w := by
  constructor
  · exact fun acyclic => ⟨acyclic.unfolds.has, fun w reaches => (acyclic.reached reaches).not_inside_self⟩
  · rintro ⟨has, noCycle⟩
    -- Values that are no containers hold nothing.
    have reached : ∀ w, s.Reaches v w → (w ∈ s.containers → s.Acyclic w) → s.Acyclic w := by
      intro w reaches container
      by_cases isContainer : w ∈ s.containers
      · exact container isContainer
      · exact acyclic_of_held (closed.has_reached has reaches) fun m holds =>
          absurd (mem_containers_of_holds holds) isContainer
    have each : ∀ w : {w // w ∈ s.containers ∧ s.Reaches v w}, s.Acyclic w := by
      intro w
      induction w using (wellFounded_inside noCycle).induction with
      | _ w ih =>
        refine acyclic_of_held (closed.has_reached has w.2.2) fun m holds => ?_
        have reaches : s.Reaches v m := w.2.2.tail holds
        exact reached m reaches fun isContainer => ih ⟨m, isContainer, reaches⟩ (.single holds)
    exact reached v .refl fun isContainer => each ⟨v, isContainer, .refl⟩

end Bindlang.Store
