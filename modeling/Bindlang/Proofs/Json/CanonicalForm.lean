import Bindlang.Proofs.Printer.TreeExpressions

namespace Bindlang

namespace Json

section Sorting

variable {α β : Type} {field other : String × α} {fields sorted kept : List (String × α)}

def insertFields (sorted fields : List (String × α)) : List (String × α) :=
  fields.foldl (fun sorted field => insertField field sorted) sorted

def Sorted (fields : List (String × α)) : Prop :=
  fields.Pairwise fun a b => a.1 < b.1

theorem find_insertField (k : String) (field : String × α) (fields : List (String × α)) :
    Keyed.find? Prod.fst k (insertField field fields) =
      if field.1 = k then some field else Keyed.find? Prod.fst k fields := by
  induction fields with
  | nil => by_cases here : field.1 = k <;> simp [insertField, Keyed.find?, here]
  | cons first others ih =>
    unfold Keyed.find? at ih
    unfold insertField
    split
    · by_cases here : field.1 = k <;> simp [Keyed.find?, here]
    · split
      · rename_i same
        by_cases here : field.1 = k <;> simp [Keyed.find?, here, ← same]
      · rename_i different
        by_cases found : first.1 = k
        · subst found
          simp [Keyed.find?, different]
        · by_cases here : field.1 = k <;> simp [Keyed.find?, found, here, ih]

theorem mem_insertField (member : other ∈ insertField field fields) :
    other = field ∨ other ∈ fields := by
  induction fields with
  | nil => exact .inl (by simpa [insertField] using member)
  | cons first others ih =>
    unfold insertField at member
    split at member
    · exact List.mem_cons.1 member
    · split at member
      · exact (List.mem_cons.1 member).imp_right (List.mem_cons_of_mem first)
      · rcases List.mem_cons.1 member with rfl | behind
        · exact .inr List.mem_cons_self
        · exact (ih behind).imp_right (List.mem_cons_of_mem first)

theorem sorted_insertField (field : String × α) (sorted : Sorted fields) :
    Sorted (insertField field fields) := by
  induction fields with
  | nil => exact List.pairwise_singleton _ _
  | cons first others ih =>
    obtain ⟨least, sortedOthers⟩ := List.pairwise_cons.1 sorted
    unfold insertField
    split
    · rename_i before
      apply List.pairwise_cons.2
      refine ⟨?_, sorted⟩
      intro other member
      rcases List.mem_cons.1 member with rfl | behind
      · exact before
      · exact String.lt_trans before (least other behind)
    · rename_i notBefore
      split
      · rename_i same
        exact List.pairwise_cons.2 ⟨same ▸ least, sortedOthers⟩
      · rename_i different
        have behind : first.1 < field.1 := by
          by_contra notBehind
          exact different (String.le_antisymm (String.not_lt.1 notBehind) (String.not_lt.1 notBefore))
        apply List.pairwise_cons.2
        refine ⟨?_, ih sortedOthers⟩
        intro other member
        rcases mem_insertField member with rfl | inside
        · exact behind
        · exact least other inside

theorem Sorted.nodup (sorted : Sorted fields) : (fields.map Prod.fst).Nodup := by
  apply List.Pairwise.map Prod.fst _ sorted
  intro a b before same
  rw [same] at before
  exact String.lt_irrefl _ before

theorem find_insertFields (same : ∀ k, Keyed.find? Prod.fst k sorted = Keyed.find? Prod.fst k kept)
    (fields : List (String × α)) (k : String) :
    Keyed.find? Prod.fst k (insertFields sorted fields) =
      Keyed.find? Prod.fst k (Keyed.putAll Prod.fst kept fields) := by
  induction fields generalizing sorted kept with
  | nil => exact same k
  | cons field fields ih =>
    apply ih
    intro k
    rw [find_insertField, Keyed.find_put, same]

theorem sorted_insertFields (sorted : Sorted kept) (fields : List (String × α)) :
    Sorted (insertFields kept fields) := by
  induction fields generalizing kept with
  | nil => exact sorted
  | cons field fields ih => exact ih (sorted_insertField field sorted)

theorem sorted_sortFields (fields : List (String × α)) : Sorted (sortFields fields) :=
  sorted_insertFields .nil fields

theorem ofList_perm_sortFields (fields : List (String × α)) :
    (Keyed.ofList Prod.fst fields).Perm (sortFields fields) :=
  Keyed.perm_of_find (Keyed.nodup_ofList Prod.fst fields) (sorted_sortFields fields).nodup
    fun k => (find_insertFields (fun _ => rfl) fields k).symm

theorem map_insertField (g : α → β) (field : String × α) (fields : List (String × α)) :
    (insertField field fields).map (fun field => (field.1, g field.2)) =
      insertField (field.1, g field.2) (fields.map fun field => (field.1, g field.2)) := by
  induction fields with
  | nil => rfl
  | cons first others ih =>
    rw [List.map_cons, insertField, insertField, ← ih]
    repeat' split
    all_goals rfl

theorem map_insertFields (g : α → β) (sorted fields : List (String × α)) :
    (insertFields sorted fields).map (fun field => (field.1, g field.2)) =
      insertFields (sorted.map fun field => (field.1, g field.2))
        (fields.map fun field => (field.1, g field.2)) := by
  induction fields generalizing sorted with
  | nil => rfl
  | cons field fields ih =>
    rw [insertFields, List.foldl_cons, ← insertFields, ih, map_insertField, List.map_cons,
      insertFields, insertFields, List.foldl_cons]

theorem map_sortFields (g : α → β) (fields : List (String × α)) :
    (sortFields fields).map (fun field => (field.1, g field.2)) =
      sortFields (fields.map fun field => (field.1, g field.2)) :=
  map_insertFields g [] fields

end Sorting

theorem canonicalItems_eq_map (items : List Json) : canonicalItems items = items.map canonical := by
  induction items with
  | nil => rfl
  | cons item items ih => rw [canonicalItems, ih, List.map_cons]

theorem canonicalFields_eq_map (fields : List (String × Json)) :
    canonicalFields fields = fields.map fun field => (field.1, field.2.canonical) := by
  induction fields with
  | nil => rfl
  | cons field fields ih => rw [canonicalFields, ih, List.map_cons]

theorem inductionOn {motive : Json → Prop} (j : Json) (null : motive .null)
    (boolean : ∀ b, motive (.boolean b)) (integer : ∀ n, motive (.integer n))
    (float : ∀ x, motive (.float x)) (string : ∀ s, motive (.string s))
    (array : ∀ items, (∀ item ∈ items, motive item) → motive (.array items))
    (object : ∀ fields, (∀ field ∈ fields, motive field.2) → motive (.object fields)) : motive j :=
  @Json.rec motive (fun items => ∀ item ∈ items, motive item)
    (fun fields => ∀ field ∈ fields, motive field.2) (fun field => motive field.2)
    null boolean integer float string array object
    (fun _ none => nomatch none) (fun _ _ first others => List.forall_mem_cons.2 ⟨first, others⟩)
    (fun _ none => nomatch none) (fun _ _ first others => List.forall_mem_cons.2 ⟨first, others⟩)
    (fun _ _ value => value) j

end Json

namespace Tree

theorem itemsOfJson_eq_map (items : List Json) : itemsOfJson items = items.map ofJson := by
  induction items with
  | nil => rfl
  | cons item items ih => rw [itemsOfJson, ih, List.map_cons]

theorem fieldsOfJson_eq_map (fields : List (String × Json)) :
    fieldsOfJson fields = fields.map fun field => (field.1, ofJson field.2) := by
  induction fields with
  | nil => rfl
  | cons field fields ih => rw [fieldsOfJson, ih, List.map_cons]

theorem equalItems_map_iff {α : Type} {f g : α → Tree} {items : List α} :
    equalItems (items.map f) (items.map g) = true ↔ ∀ item ∈ items, (f item).equal (g item) = true := by
  induction items with
  | nil => simp [equalItems]
  | cons item items ih =>
    rw [List.map_cons, List.map_cons, equalItems, Bool.and_eq_true, ih, List.forall_mem_cons]

theorem containsFields_iff {as bs : List (String × Tree)} :
    containsFields as bs = true ↔
      ∀ a ∈ as, ∃ b, Keyed.find? Prod.fst a.1 bs = some b ∧ a.2.equal b.2 = true := by
  induction as with
  | nil => simp [containsFields]
  | cons a as ih =>
    rw [containsFields, Bool.and_eq_true, ih, List.forall_mem_cons]
    cases Keyed.find? Prod.fst a.1 bs <;> simp

theorem equal_objects_iff {α : Type} {f g : α → Tree} {fields others : List (String × α)}
    (same : fields.Perm others) (distinct : (others.map Prod.fst).Nodup) :
    (object (fields.map fun field => (field.1, f field.2))).equal
        (object (others.map fun field => (field.1, g field.2))) = true ↔
      ∀ field ∈ others, (f field.2).equal (g field.2) = true := by
  have keys : ((others.map fun field => (field.1, g field.2)).map Prod.fst).Nodup := by
    rwa [List.map_map]
  have found : ∀ field ∈ others,
      Keyed.find? Prod.fst field.1 (others.map fun field => (field.1, g field.2)) =
        some (field.1, g field.2) :=
    fun field member => (Keyed.find_key_iff keys).2 (List.mem_map_of_mem member)
  change (_ == _ && containsFields _ _) = true ↔ _
  rw [List.length_map, List.length_map, same.length_eq, beq_self_eq_true, Bool.true_and,
    containsFields_iff, List.forall_mem_map]
  constructor
  · intro each field member
    obtain ⟨_, there, equal⟩ := each field (same.mem_iff.2 member)
    rw [found field member] at there
    cases there
    exact equal
  · intro each field member
    have inside := same.mem_iff.1 member
    exact ⟨_, found field inside, each field inside⟩

theorem merged_array_ofJson (items : List Json) :
    (ofJson (.array items)).merged = .array (items.map fun item => (ofJson item).merged) := by
  rw [ofJson, itemsOfJson_eq_map, merged, mergedItems_eq_map, List.map_map]
  rfl

theorem merged_object_ofJson (fields : List (String × Json)) :
    (ofJson (.object fields)).merged =
      .object ((Keyed.ofList Prod.fst fields).map fun field => (field.1, (ofJson field.2).merged)) := by
  rw [ofJson, fieldsOfJson_eq_map, merged, mergedFields_eq_map, List.map_map,
    Keyed.map_values_ofList fun value => (ofJson value).merged]
  rfl

theorem merged_canonical_object (fields : List (String × Json)) :
    (ofJson (Json.object fields).canonical).merged =
      .object ((Json.sortFields fields).map
        fun field => (field.1, (ofJson field.2.canonical).merged)) := by
  have distinct := (Json.sorted_sortFields (Json.canonicalFields fields)).nodup
  rw [Json.canonical, merged_object_ofJson, Keyed.ofList_of_distinct distinct,
    Json.canonicalFields_eq_map, ← Json.map_sortFields, List.map_map]
  rfl

theorem equal_canonical {j : Json} (printable : (ofJson j).Printable) :
    (ofJson j).merged.equal (ofJson j.canonical).merged = true := by
  induction j using Json.inductionOn with
  | null => rfl
  | boolean b => exact beq_self_eq_true b
  | integer n =>
    change (ofInteger n).Printable at printable
    change (ofInteger n).merged.equal (ofInteger n).merged = true
    cases fits : Text.toInt64? n with
    | some i =>
      simp only [ofInteger, fits]
      exact beq_self_eq_true i
    | none =>
      simp only [ofInteger, fits] at printable ⊢
      cases printable with
      | float finite => exact Binary64.beq_self_of_isFinite finite
  | float x =>
    cases printable with
    | float finite => exact Binary64.beq_self_of_isFinite finite
  | string s => exact beq_self_eq_true s
  | array items ih =>
    rw [ofJson, itemsOfJson_eq_map] at printable
    cases printable with
    | array each =>
      rw [merged_array_ofJson, Json.canonical, Json.canonicalItems_eq_map, merged_array_ofJson,
        List.map_map]
      exact equalItems_map_iff.2 fun item member =>
        ih item member (each _ (List.mem_map_of_mem member))
  | object fields ih =>
    rw [ofJson, fieldsOfJson_eq_map] at printable
    cases printable with
    | object _ values =>
      -- Both have the same fields, in different orders, and only the order is not compared.
      have same := Json.ofList_perm_sortFields fields
      rw [merged_object_ofJson, merged_canonical_object]
      refine (equal_objects_iff (f := fun value => (ofJson value).merged)
        (g := fun value => (ofJson value.canonical).merged) same
        (Json.sorted_sortFields fields).nodup).2 fun field member => ?_
      have original := Keyed.mem_of_mem_ofList (same.mem_iff.2 member)
      exact ih field original (values _ (List.mem_map_of_mem original))

end Tree

end Bindlang
