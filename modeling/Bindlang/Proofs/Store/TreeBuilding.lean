import Bindlang.Proofs.Data.KeyedLists
import Bindlang.Proofs.Store.Trees

namespace Bindlang

namespace Tree

mutual

def merged : Tree → Tree
  | undefined => undefined
  | null => null
  | boolean b => boolean b
  | integer n => integer n
  | float x => float x
  | string s => string s
  | array items => array (mergedItems items)
  | object fields => object (Keyed.ofList Prod.fst (mergedFields fields))
  | function ref => function ref

def mergedItems : List Tree → List Tree
  | [] => []
  | item :: items => item.merged :: mergedItems items

def mergedFields : List (String × Tree) → List (String × Tree)
  | [] => []
  | (key, value) :: fields => (key, value.merged) :: mergedFields fields

end

theorem mergedItems_eq_map (items : List Tree) : mergedItems items = items.map merged := by
  induction items with
  | nil => rfl
  | cons item items ih => rw [mergedItems, ih, List.map_cons]

theorem mergedFields_eq_map (fields : List (String × Tree)) :
    mergedFields fields = fields.map fun field => (field.1, field.2.merged) := by
  induction fields with
  | nil => rfl
  | cons field fields ih => rw [mergedFields, ih, List.map_cons]

theorem inductionOn {motive : Tree → Prop} (t : Tree) (undefined : motive .undefined)
    (null : motive .null) (boolean : ∀ b, motive (.boolean b)) (integer : ∀ n, motive (.integer n))
    (float : ∀ x, motive (.float x)) (string : ∀ s, motive (.string s))
    (array : ∀ items, (∀ item ∈ items, motive item) → motive (.array items))
    (object : ∀ fields, (∀ field ∈ fields, motive field.2) → motive (.object fields))
    (function : ∀ ref, motive (.function ref)) : motive t :=
  @Tree.rec motive (fun items => ∀ item ∈ items, motive item)
    (fun fields => ∀ field ∈ fields, motive field.2) (fun field => motive field.2)
    undefined null boolean integer float string array object function
    (fun _ none => nomatch none) (fun _ _ first others => List.forall_mem_cons.2 ⟨first, others⟩)
    (fun _ none => nomatch none) (fun _ _ first others => List.forall_mem_cons.2 ⟨first, others⟩)
    (fun _ _ value => value) t

end Tree

namespace Store

/-- Storing the tree gives a value with the merged tree behind it, and changes no container. -/
def Builds (t : Tree) : Prop :=
  ∀ s, (build t s).2.Unfolds (build t s).1 t.merged ∧ s.Extends (build t s).2

variable {items : List Tree} {fields : List (String × Tree)}

theorem buildItems_cons (item : Tree) (items : List Tree) (s : Store) :
    buildItems (item :: items) s =
      ((build item s).1 :: (buildItems items (build item s).2).1,
        (buildItems items (build item s).2).2) := rfl

theorem buildFields_cons (key : String) (value : Tree) (fields : List (String × Tree)) (s : Store) :
    buildFields ((key, value) :: fields) s =
      ((key, (build value s).1) :: (buildFields fields (build value s).2).1,
        (buildFields fields (build value s).2).2) := rfl

theorem build_array (items : List Tree) (s : Store) :
    build (.array items) s = newArray (buildItems items s).1 (buildItems items s).2 := rfl

theorem build_object (fields : List (String × Tree)) (s : Store) :
    build (.object fields) s =
      newObject (.ofList (buildFields fields s).1) (buildFields fields s).2 := rfl

theorem exists_members_of_buildItems (each : ∀ item ∈ items, Builds item) (s : Store) :
    s.Extends (buildItems items s).2 ∧ ∃ members : List (Value × Tree),
      (buildItems items s).1 = members.map Prod.fst ∧
      items.map Tree.merged = members.map Prod.snd ∧
      ∀ m ∈ members, (buildItems items s).2.Unfolds m.1 m.2 := by
  induction items generalizing s with
  | nil => exact ⟨.refl s, [], rfl, rfl, fun _ none => nomatch none⟩
  | cons item items ih =>
    obtain ⟨first, others⟩ := List.forall_mem_cons.1 each
    obtain ⟨unfolds, grows⟩ := first s
    obtain ⟨growsMore, members, values, trees, unfold⟩ := ih others (build item s).2
    rw [buildItems_cons]
    refine ⟨grows.trans growsMore, ((build item s).1, item.merged) :: members, ?_, ?_, ?_⟩
    · rw [values, List.map_cons]
    · rw [List.map_cons, trees, List.map_cons]
    · exact List.forall_mem_cons.2 ⟨unfolds.extend growsMore, unfold⟩

theorem exists_members_of_buildFields (each : ∀ field ∈ fields, Builds field.2) (s : Store) :
    s.Extends (buildFields fields s).2 ∧ ∃ members : List (String × Value × Tree),
      (buildFields fields s).1 = members.map (fun m => (m.1, m.2.1)) ∧
      Tree.mergedFields fields = members.map (fun m => (m.1, m.2.2)) ∧
      ∀ m ∈ members, (buildFields fields s).2.Unfolds m.2.1 m.2.2 := by
  induction fields generalizing s with
  | nil => exact ⟨.refl s, [], rfl, rfl, fun _ none => nomatch none⟩
  | cons field fields ih =>
    obtain ⟨key, value⟩ := field
    obtain ⟨first, others⟩ := List.forall_mem_cons.1 each
    obtain ⟨unfolds, grows⟩ := first s
    obtain ⟨growsMore, members, values, trees, unfold⟩ := ih others (build value s).2
    rw [buildFields_cons]
    refine ⟨grows.trans growsMore, (key, (build value s).1, value.merged) :: members, ?_, ?_, ?_⟩
    · rw [values, List.map_cons]
    · rw [Tree.mergedFields, trees, List.map_cons]
    · exact List.forall_mem_cons.2 ⟨unfolds.extend growsMore, unfold⟩

theorem unfolds_newArray {s : Store} {members : List (Value × Tree)}
    (unfold : ∀ m ∈ members, s.Unfolds m.1 m.2) :
    (newArray (members.map Prod.fst) s).2.Unfolds (newArray (members.map Prod.fst) s).1
      (.array (members.map Prod.snd)) := by
  have pushed := extends_newArray s (members.map Prod.fst)
  exact .array Array.getElem?_push_size fun m member => (unfold m member).extend pushed

theorem unfolds_newObject {s : Store} {members : List (String × Value × Tree)}
    (unfold : ∀ m ∈ members, s.Unfolds m.2.1 m.2.2) :
    let fields : Fields Value := .ofList (members.map fun m => (m.1, m.2.1))
    (newObject fields s).2.Unfolds (newObject fields s).1
      (.object (Keyed.ofList Prod.fst (members.map fun m => (m.1, m.2.2)))) := by
  intro fields
  have pushed := extends_newObject s fields
  -- Merging by key acts on members with their trees just as on values and trees alone.
  have entries : fields.entries = (Keyed.ofList Prod.fst members).map fun m => (m.1, m.2.1) :=
    (Keyed.map_values_ofList Prod.fst members).symm
  have merged : Keyed.ofList Prod.fst (members.map fun m => (m.1, m.2.2)) =
      (Keyed.ofList Prod.fst members).map fun m => (m.1, m.2.2) :=
    (Keyed.map_values_ofList Prod.snd members).symm
  rw [merged]
  refine .object Array.getElem?_push_size entries fun m member => ?_
  exact (unfold m (Keyed.mem_of_mem_ofList member)).extend pushed

theorem builds_array (each : ∀ item ∈ items, Builds item) : Builds (.array items) := by
  intro s
  obtain ⟨grows, members, values, trees, unfold⟩ := exists_members_of_buildItems each s
  rw [build_array, values, Tree.merged, Tree.mergedItems_eq_map, trees]
  exact ⟨unfolds_newArray unfold, grows.trans (extends_newArray _ _)⟩

theorem builds_object (each : ∀ field ∈ fields, Builds field.2) : Builds (.object fields) := by
  intro s
  obtain ⟨grows, members, values, trees, unfold⟩ := exists_members_of_buildFields each s
  rw [build_object, values, Tree.merged, trees]
  exact ⟨unfolds_newObject unfold, grows.trans (extends_newObject _ _)⟩

theorem Unfolds.merged_eq {s : Store} {v : Value} {t : Tree} (unfolds : s.Unfolds v t) :
    t.merged = t := by
  induction unfolds with
  | undefined | null | boolean | integer | float | string | function => rfl
  | array _ _ ih =>
    rw [Tree.merged, Tree.mergedItems_eq_map, List.map_map]
    congr 1
    exact List.map_congr_left ih
  | @object _ fields members _ entries _ ih =>
    have same : Tree.mergedFields (members.map fun m => (m.1, m.2.2)) =
        members.map fun m => (m.1, m.2.2) := by
      rw [Tree.mergedFields_eq_map, List.map_map]
      exact List.map_congr_left fun m member => by rw [Function.comp_apply, ih m member]
    have distinct : ((members.map fun m => (m.1, m.2.2)).map Prod.fst).Nodup := by
      have keys := fields.distinct
      rw [entries, List.map_map] at keys
      rwa [List.map_map]
    rw [Tree.merged, same, Keyed.ofList_of_distinct distinct]

theorem builds (t : Tree) : Builds t := by
  induction t using Tree.inductionOn with
  | undefined => exact fun s => ⟨.undefined, .refl s⟩
  | null => exact fun s => ⟨.null, .refl s⟩
  | boolean b => exact fun s => ⟨.boolean b, .refl s⟩
  | integer n => exact fun s => ⟨.integer n, .refl s⟩
  | float x => exact fun s => ⟨.float x, .refl s⟩
  | string t => exact fun s => ⟨.string t, .refl s⟩
  | function ref => exact fun s => ⟨.function ref, .refl s⟩
  | array items ih => exact builds_array ih
  | object fields ih => exact builds_object ih

end Store

end Bindlang
