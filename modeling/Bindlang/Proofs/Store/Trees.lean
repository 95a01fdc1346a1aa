import Bindlang.Proofs.Data.Collections
import Bindlang.Store.Tree
import Mathlib.Data.List.Perm.Subperm

namespace Bindlang

namespace Tree

mutual

def depth : Tree → Nat
  | undefined | null | boolean _ | integer _ | float _ | string _ | function _ => 0
  | array items => depthOfItems items + 1
  | object fields => depthOfFields fields + 1

def depthOfItems : List Tree → Nat
  | [] => 0
  | item :: items => max item.depth (depthOfItems items)

def depthOfFields : List (String × Tree) → Nat
  | [] => 0
  | (_, value) :: fields => max value.depth (depthOfFields fields)

end

theorem depthOfItems_eq_greatest (items : List Tree) : depthOfItems items = items.greatest depth := by
  induction items with
  | nil => rfl
  | cons item items ih => rw [depthOfItems, List.greatest, ih]

theorem depthOfFields_eq_greatest (fields : List (String × Tree)) :
    depthOfFields fields = fields.greatest fun field => field.2.depth := by
  induction fields with
  | nil => rfl
  | cons field fields ih => rw [depthOfFields, List.greatest, ih]

theorem depth_array (items : List Tree) : (array items).depth = items.greatest depth + 1 := by
  rw [depth, depthOfItems_eq_greatest]

theorem depth_object (fields : List (String × Tree)) :
    (object fields).depth = (fields.greatest fun field => field.2.depth) + 1 := by
  rw [depth, depthOfFields_eq_greatest]

end Tree

namespace Store

/-- A value that contains itself has none. -/
inductive Unfolds (s : Store) : Value → Tree → Prop
  | undefined : Unfolds s .undefined .undefined
  | null : Unfolds s .null .null
  | boolean (b : Bool) : Unfolds s (.boolean b) (.boolean b)
  | integer (n : Int64) : Unfolds s (.integer n) (.integer n)
  | float (x : Float) : Unfolds s (.float x) (.float x)
  | string (t : String) : Unfolds s (.string t) (.string t)
  | function (ref : FunctionRef) : Unfolds s (.function ref) (.function ref)
  | array {ref : ArrayRef} {members : List (Value × Tree)}
      (here : s.arrays[ref.index]? = some (members.map Prod.fst))
      (each : ∀ m ∈ members, Unfolds s m.1 m.2) :
      Unfolds s (.array ref) (.array (members.map Prod.snd))
  | object {ref : ObjectRef} {fields : Fields Value} {members : List (String × Value × Tree)}
      (here : s.objects[ref.index]? = some fields)
      (entries : fields.entries = members.map fun m => (m.1, m.2.1))
      (each : ∀ m ∈ members, Unfolds s m.2.1 m.2.2) :
      Unfolds s (.object ref) (.object (members.map fun m => (m.1, m.2.2)))

def Acyclic (s : Store) (v : Value) : Prop :=
  ∃ t, s.Unfolds v t

variable {s s' : Store} {v w : Value} {t u : Tree} {n : Nat}

theorem Unfolds.treeWithin (unfolds : s.Unfolds v t) (room : t.depth ≤ n) :
    s.treeWithin? n v = some t := by
  induction unfolds generalizing n with
  | undefined | null | boolean | integer | float | string | function => cases n <;> rfl
  | @array ref members here each ih =>
    rw [Tree.depth_array] at room
    obtain ⟨k, rfl⟩ : ∃ k, n = k + 1 := ⟨n - 1, by omega⟩
    have fits := List.greatest_le_iff.1 (Nat.le_of_succ_le_succ room)
    have found : (members.map Prod.fst).mapM (s.treeWithin? k) = some (members.map Prod.snd) :=
      List.mapM_map_eq_some fun m member => ih m member (fits m.2 (List.mem_map_of_mem member))
    rw [treeWithin?, items, here, Option.getD_some, found, Option.map_some]
  | @object ref fields members here entries each ih =>
    rw [Tree.depth_object] at room
    obtain ⟨k, rfl⟩ : ∃ k, n = k + 1 := ⟨n - 1, by omega⟩
    have fits := List.greatest_le_iff.1 (Nat.le_of_succ_le_succ room)
    have found : (members.map fun m => (m.1, m.2.1)).mapM
          (fun field => (s.treeWithin? k field.2).map (field.1, ·)) =
        some (members.map fun m => (m.1, m.2.2)) := by
      refine List.mapM_map_eq_some fun m member => ?_
      rw [ih m member (fits (m.1, m.2.2) (List.mem_map_of_mem member)), Option.map_some]
    rw [treeWithin?, Store.fields, here, Option.getD_some, entries, found, Option.map_some]

def containers (s : Store) : List Value :=
  (List.range s.arrays.size).map (fun i => .array ⟨i⟩) ++
    (List.range s.objects.size).map fun i => .object ⟨i⟩

theorem length_containers (s : Store) :
    s.containers.length = s.arrays.size + s.objects.size := by
  simp [containers]

theorem array_mem_containers {ref : ArrayRef} {items : List Value}
    (here : s.arrays[ref.index]? = some items) : .array ref ∈ s.containers := by
  obtain ⟨inside, _⟩ := Array.getElem?_eq_some_iff.1 here
  exact List.mem_append_left _ (List.mem_map.2 ⟨ref.index, List.mem_range.2 inside, rfl⟩)

theorem object_mem_containers {ref : ObjectRef} {fields : Fields Value}
    (here : s.objects[ref.index]? = some fields) : .object ref ∈ s.containers := by
  obtain ⟨inside, _⟩ := Array.getElem?_eq_some_iff.1 here
  exact List.mem_append_right _ (List.mem_map.2 ⟨ref.index, List.mem_range.2 inside, rfl⟩)

/-- Below a value there is a container of each smaller depth. -/
theorem Unfolds.exists_container (unfolds : s.Unfolds v t) (pos : 0 < n) (deep : n ≤ t.depth) :
    ∃ w ∈ s.containers, ∃ u, s.Unfolds w u ∧ u.depth = n := by
  induction unfolds with
  | undefined | null | boolean | integer | float | string | function =>
    rw [Tree.depth] at deep
    omega
  | @array ref members here each ih =>
    by_cases last : n = (Tree.array (members.map Prod.snd)).depth
    · exact ⟨.array ref, array_mem_containers here, _, .array here each, last.symm⟩
    · rw [Tree.depth_array] at deep last
      have deeper : n ≤ (members.map Prod.snd).greatest Tree.depth := by omega
      obtain ⟨item, inside, below⟩ := List.exists_of_le_greatest pos deeper
      obtain ⟨m, member, rfl⟩ := List.mem_map.1 inside
      exact ih m member below
  | @object ref fields members here entries each ih =>
    by_cases last : n = (Tree.object (members.map fun m => (m.1, m.2.2))).depth
    · exact ⟨.object ref, object_mem_containers here, _, .object here entries each, last.symm⟩
    · rw [Tree.depth_object] at deep last
      have deeper : n ≤ (members.map fun m => (m.1, m.2.2)).greatest fun field => field.2.depth := by
        omega
      obtain ⟨field, inside, below⟩ := List.exists_of_le_greatest pos deeper
      obtain ⟨m, member, rfl⟩ := List.mem_map.1 inside
      exact ih m member below

theorem Unfolds.depth_le (unfolds : s.Unfolds v t) : t.depth ≤ s.arrays.size + s.objects.size := by
  let depths := s.containers.filterMap fun w => (s.treeWithin? t.depth w).map Tree.depth
  have all : List.range' 1 t.depth ⊆ depths := by
    intro n member
    rw [List.mem_range'_1] at member
    obtain ⟨w, inside, u, below, rfl⟩ := unfolds.exists_container (by omega) (by omega : n ≤ t.depth)
    refine List.mem_filterMap.2 ⟨w, inside, ?_⟩
    rw [below.treeWithin (by omega), Option.map_some]
  calc
    t.depth = (List.range' 1 t.depth).length := List.length_range'.symm
    _ ≤ depths.length := ((List.nodup_range' 1).subperm all).length_le
    _ ≤ s.containers.length := List.length_filterMap_le _ _
    _ = s.arrays.size + s.objects.size := length_containers s

theorem Unfolds.tree?_eq (unfolds : s.Unfolds v t) : s.tree? v = some t :=
  unfolds.treeWithin unfolds.depth_le

theorem Unfolds.tree_eq (unfolds : s.Unfolds v t) : s.tree v = t := by
  rw [tree, unfolds.tree?_eq, Option.getD_some]

theorem Acyclic.unfolds (acyclic : s.Acyclic v) : s.Unfolds v (s.tree v) := by
  obtain ⟨t, unfolds⟩ := acyclic
  rwa [unfolds.tree_eq]

theorem Unfolds.equal_eq (unfolds : s.Unfolds v t) (other : s.Unfolds w u) :
    s.equal v w = t.equal u := by
  rw [equal, unfolds.tree?_eq, other.tree?_eq]

/-- All containers of a store are still there, and hold what they held. -/
structure Extends (s s' : Store) : Prop where
  arrays : ∀ (i : Nat) items, s.arrays[i]? = some items → s'.arrays[i]? = some items
  objects : ∀ (i : Nat) fields, s.objects[i]? = some fields → s'.objects[i]? = some fields

theorem Extends.refl (s : Store) : s.Extends s :=
  ⟨fun _ _ here => here, fun _ _ here => here⟩

theorem Extends.trans {s'' : Store} (first : s.Extends s') (second : s'.Extends s'') :
    s.Extends s'' :=
  ⟨fun i items here => second.arrays i items (first.arrays i items here),
    fun i fields here => second.objects i fields (first.objects i fields here)⟩

theorem extends_newArray (s : Store) (items : List Value) : s.Extends (newArray items s).2 :=
  ⟨fun _ _ here => Array.getElem?_push_of_some items here, fun _ _ here => here⟩

theorem extends_newObject (s : Store) (fields : Fields Value) :
    s.Extends (newObject fields s).2 :=
  ⟨fun _ _ here => here, fun _ _ here => Array.getElem?_push_of_some fields here⟩

theorem Unfolds.extend (unfolds : s.Unfolds v t) (grows : s.Extends s') : s'.Unfolds v t := by
  induction unfolds with
  | undefined => exact .undefined
  | null => exact .null
  | boolean b => exact .boolean b
  | integer n => exact .integer n
  | float x => exact .float x
  | string t => exact .string t
  | function ref => exact .function ref
  | array here _ ih => exact .array (grows.arrays _ _ here) ih
  | object here entries _ ih => exact .object (grows.objects _ _ here) entries ih

end Store

end Bindlang
