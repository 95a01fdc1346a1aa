import Bindlang.Proofs.Json.CanonicalForm

namespace Bindlang

namespace Json

section Sorting

variable {α : Type} {field : String × α} {fields kept : List (String × α)}

theorem insertField_of_last (last : ∀ other ∈ kept, other.1 < field.1) :
    insertField field kept = kept ++ [field] := by
  induction kept with
  | nil => rfl
  | cons first others ih =>
    obtain ⟨before, others⟩ := List.forall_mem_cons.1 last
    have notBefore : ¬field.1 < first.1 := String.lt_asymm before
    have different : field.1 ≠ first.1 := (String.ne_of_lt before).symm
    rw [insertField, if_neg notBefore, if_neg different, ih others, List.cons_append]

theorem insertFields_of_sorted (sorted : Sorted (kept ++ fields)) :
    insertFields kept fields = kept ++ fields := by
  induction fields generalizing kept with
  | nil => rw [List.append_nil, insertFields, List.foldl_nil]
  | cons field fields ih =>
    have last : ∀ other ∈ kept, other.1 < field.1 :=
      fun other member => (List.pairwise_append.1 sorted).2.2 other member field List.mem_cons_self
    rw [List.append_cons] at sorted ⊢
    rw [← ih sorted, ← insertField_of_last last, insertFields, insertFields, List.foldl_cons]

theorem sortFields_of_sorted (sorted : Sorted fields) : sortFields fields = fields :=
  @insertFields_of_sorted _ fields [] sorted

end Sorting

/-- Fields are sorted under distinct keys, integers have 64 bits, and floats are finite. -/
inductive FitsValue : Json → Prop
  | null : FitsValue .null
  | boolean (b : Bool) : FitsValue (.boolean b)
  | integer {n : Int} (fits : Int64.minValue.toInt ≤ n ∧ n ≤ Int64.maxValue.toInt) :
      FitsValue (.integer n)
  | float {x : Float} (finite : x.isFinite = true) : FitsValue (.float x)
  | string (s : String) : FitsValue (.string s)
  | array {items : List Json} (each : ∀ item ∈ items, FitsValue item) : FitsValue (.array items)
  | object {fields : List (String × Json)} (sorted : Sorted fields)
      (values : ∀ field ∈ fields, FitsValue field.2) : FitsValue (.object fields)

variable {j : Json}

theorem FitsValue.canonical_eq (fits : j.FitsValue) : j.canonical = j := by
  induction fits with
  | null | boolean | integer | float | string => rfl
  | array each ih =>
    rw [canonical, canonicalItems_eq_map, List.map_eq_self_iff.2 ih]
  | object sorted values ih =>
    rw [canonical, canonicalFields_eq_map, List.map_values_eq_self_iff.2 ih, sortFields_of_sorted sorted]

end Json

namespace Tree

variable {items : List Tree} {fields : List (String × Tree)} {t : Tree} {j : Json}

theorem itemsToJson_eq_map (items : List Tree) : itemsToJson items = items.map toJson := by
  induction items with
  | nil => rfl
  | cons item items ih => rw [itemsToJson, ih, List.map_cons]

theorem fieldsToJson_eq_map (fields : List (String × Tree)) :
    fieldsToJson fields = fields.map fun field => (field.1, field.2.toJson) := by
  induction fields with
  | nil => rfl
  | cons field fields ih => rw [fieldsToJson, ih, List.map_cons]

theorem fitsValue_toJson (t : Tree) : t.toJson.FitsValue := by
  induction t using inductionOn with
  | undefined | null | function => exact .null
  | boolean b => exact .boolean b
  | integer n => exact .integer ⟨n.minValue_le_toInt, n.toInt_le⟩
  | float x =>
    rw [toJson, Json.ofFloat]
    split
    · exact .float ‹_›
    · exact .null
  | string s => exact .string s
  | array items ih =>
    rw [toJson, itemsToJson_eq_map]
    exact .array (List.forall_mem_map.2 ih)
  | object fields ih =>
    rw [toJson, fieldsToJson_eq_map]
    refine .object (Json.sorted_sortFields _) fun field member => ?_
    have inside := Keyed.mem_of_mem_ofList ((Json.ofList_perm_sortFields _).mem_iff.2 member)
    obtain ⟨original, there, rfl⟩ := List.mem_map.1 inside
    exact ih original there

theorem merged_ofJson (fits : j.FitsValue) : (ofJson j).merged = ofJson j := by
  induction fits with
  | null | boolean | float | string => rfl
  | @integer n fits =>
    rw [ofJson, ofInteger]
    split <;> rfl
  | array each ih =>
    rw [merged_array_ofJson, ofJson, itemsOfJson_eq_map]
    exact congrArg array (List.map_congr_left ih)
  | object sorted values ih =>
    rw [merged_object_ofJson, ofJson, fieldsOfJson_eq_map, Keyed.ofList_of_distinct sorted.nodup]
    exact congrArg object (List.map_congr_left fun field member => by rw [ih field member])

theorem toJson_ofJson (fits : j.FitsValue) : (ofJson j).toJson = j := by
  induction fits with
  | null | boolean | string => rfl
  | @integer n fits =>
    have same : Text.toInt64? n = some (.ofInt n) := if_pos fits
    rw [ofJson, ofInteger, same]
    exact congrArg Json.integer (Int64.toInt_ofInt_of_le fits.1 (Int.lt_add_one_of_le fits.2))
  | float finite => exact if_pos finite
  | array each ih =>
    rw [ofJson, itemsOfJson_eq_map, toJson, itemsToJson_eq_map, List.map_map]
    exact congrArg Json.array (List.map_eq_self_iff.2 ih)
  | object sorted values ih =>
    rw [ofJson, fieldsOfJson_eq_map, toJson, fieldsToJson_eq_map, List.map_map]
    have same := List.map_values_eq_self_iff (f := fun value => (ofJson value).toJson).2 ih
    exact congrArg Json.object ((congrArg Json.sortFields same).trans (Json.sortFields_of_sorted sorted))

/-- The trees that a tree is made up of, at any depth. -/
inductive Within (part : Tree) : Tree → Prop
  | self : Within part part
  | item {items : List Tree} {item : Tree} (member : item ∈ items) (within : Within part item) :
      Within part (.array items)
  | field {fields : List (String × Tree)} {field : String × Tree} (member : field ∈ fields)
      (within : Within part field.2) : Within part (.object fields)

def LacksJson : Tree → Prop
  | undefined | function _ => True
  | float x => x.isFinite = false
  | _ => False

section Within

variable {Holds : Tree → Prop}

theorem eq_of_within_flat {part : Tree} (flat : t.depth = 0) (within : part.Within t) : part = t := by
  cases within with
  | self => rfl
  | item | field => cases flat

theorem forall_within_flat (flat : t.depth = 0) : (∀ part, part.Within t → Holds part) ↔ Holds t :=
  ⟨fun all => all t .self, fun here _ within => eq_of_within_flat flat within ▸ here⟩

theorem forall_within_array :
    (∀ part, part.Within (array items) → Holds part) ↔
      Holds (array items) ∧ ∀ item ∈ items, ∀ part, part.Within item → Holds part := by
  constructor
  · intro all
    exact ⟨all _ .self, fun item member part within => all part (.item member within)⟩
  · rintro ⟨here, each⟩ part within
    cases within with
    | self => exact here
    | item member within => exact each _ member part within

theorem forall_within_object :
    (∀ part, part.Within (object fields) → Holds part) ↔
      Holds (object fields) ∧ ∀ field ∈ fields, ∀ part, part.Within field.2 → Holds part := by
  constructor
  · intro all
    exact ⟨all _ .self, fun field member part within => all part (.field member within)⟩
  · rintro ⟨here, each⟩ part within
    cases within with
    | self => exact here
    | field member within => exact each _ member part within

end Within

theorem merged_array_iff :
    (array items).merged = array items ↔ ∀ item ∈ items, item.merged = item := by
  rw [merged, mergedItems_eq_map, array.injEq, List.map_eq_self_iff]

theorem merged_object_iff :
    (object fields).merged = object fields ↔
      (fields.map Prod.fst).Nodup ∧ ∀ field ∈ fields, field.2.merged = field.2 := by
  have keys : (fields.map fun field => (field.1, field.2.merged)).map Prod.fst =
      fields.map Prod.fst := by
    rw [List.map_map]
    rfl
  rw [merged, mergedFields_eq_map, object.injEq, ← List.map_values_eq_self_iff]
  constructor
  · intro same
    have distinct := Keyed.nodup_ofList Prod.fst (fields.map fun field => (field.1, field.2.merged))
    rw [same, ← keys] at distinct
    rw [Keyed.ofList_of_distinct distinct] at same
    exact ⟨keys ▸ distinct, same⟩
  · rintro ⟨distinct, same⟩
    rw [same, Keyed.ofList_of_distinct distinct]

theorem ofJson_toJson_array (items : List Tree) :
    ofJson (array items).toJson = array (items.map fun item => ofJson item.toJson) := by
  rw [toJson, itemsToJson_eq_map, ofJson, itemsOfJson_eq_map, List.map_map]
  rfl

theorem ofJson_toJson_object (fields : List (String × Tree)) :
    ofJson (object fields).toJson =
      object ((Json.sortFields fields).map fun field => (field.1, ofJson field.2.toJson)) := by
  rw [toJson, fieldsToJson_eq_map, ← Json.map_sortFields, ofJson, fieldsOfJson_eq_map, List.map_map]
  rfl

theorem equal_ofJson_toJson_iff (distinct : t.merged = t) :
    (ofJson t.toJson).equal t = true ↔ ∀ part : Tree, part.Within t → ¬part.LacksJson := by
  induction t using inductionOn with
  | undefined | function =>
    rw [forall_within_flat rfl]
    exact ⟨fun same => Bool.noConfusion same, fun has => (has trivial).elim⟩
  | null =>
    rw [forall_within_flat rfl]
    exact ⟨fun _ => id, fun _ => rfl⟩
  | boolean b =>
    rw [forall_within_flat rfl]
    exact ⟨fun _ => id, fun _ => beq_self_eq_true b⟩
  | integer n =>
    rw [forall_within_flat rfl, toJson, ofJson, ofInteger, NumberText.toInt64_toInt]
    exact ⟨fun _ => id, fun _ => beq_self_eq_true n⟩
  | float x =>
    rw [forall_within_flat rfl, toJson, Json.ofFloat, LacksJson, Bool.not_eq_false]
    split
    · rename_i finite
      exact ⟨fun _ => finite, fun _ => Binary64.beq_self_of_isFinite finite⟩
    · rename_i infinite
      exact ⟨fun same => Bool.noConfusion same, fun finite => absurd finite infinite⟩
  | string s =>
    rw [forall_within_flat rfl]
    exact ⟨fun _ => id, fun _ => beq_self_eq_true s⟩
  | array items ih =>
    have each := merged_array_iff.1 distinct
    have notLacking : ¬(array items).LacksJson := id
    rw [forall_within_array, ofJson_toJson_array,
      ← forall₂_congr fun item member => ih item member (each item member)]
    have same := @equalItems_map_iff _ (fun item => ofJson item.toJson) id items
    rw [List.map_id] at same
    exact same.trans (and_iff_right notLacking).symm
  | object fields ih =>
    obtain ⟨keys, each⟩ := merged_object_iff.1 distinct
    have notLacking : ¬(object fields).LacksJson := id
    have sorted : (Json.sortFields fields).Perm fields := by
      have same := Json.ofList_perm_sortFields fields
      rw [Keyed.ofList_of_distinct keys] at same
      exact same.symm
    rw [forall_within_object, ofJson_toJson_object,
      ← forall₂_congr fun field member => ih field member (each field member)]
    have same := equal_objects_iff (f := fun value => ofJson value.toJson) (g := id) sorted keys
    have plain : (fields.map fun field => (field.1, id field.2)) = fields := List.map_id fields
    rw [plain] at same
    exact same.trans (and_iff_right notLacking).symm

end Tree

namespace Store

theorem unfolds_buildJson {j : Json} (fits : j.FitsValue) (s : Store) :
    (buildJson j s).2.Unfolds (buildJson j s).1 (.ofJson j) ∧ s.Extends (buildJson j s).2 := by
  have built := builds (.ofJson j) s
  rw [Tree.merged_ofJson fits] at built
  rwa [buildJson, fits.canonical_eq]

theorem toJson_buildJson {j : Json} (fits : j.FitsValue) (s : Store) :
    ((buildJson j s).2.tree? (buildJson j s).1).map Tree.toJson = some j := by
  rw [(unfolds_buildJson fits s).1.tree?_eq, Option.map_some, Tree.toJson_ofJson fits]

/-- JSON comes back from its value, and a value comes back equal unless JSON lacks a part of it. -/
theorem json_and_back (s : Store) :
    (∀ j : Json, j.FitsValue →
      ((buildJson j s).2.tree? (buildJson j s).1).map Tree.toJson = some j) ∧
    ∀ v, s.Acyclic v →
      let json := (s.tree v).toJson
      let w := (buildJson json s).1
      let after := (buildJson json s).2
      (after.equal w v = true ↔ ∀ part : Tree, part.Within (s.tree v) → ¬part.LacksJson) ∧
        (after.tree? w).map Tree.toJson = some json := by
  refine ⟨fun j fits => toJson_buildJson fits s, fun v acyclic => ?_⟩
  obtain ⟨t, unfolds⟩ := acyclic
  rw [unfolds.tree_eq]
  have fits := Tree.fitsValue_toJson t
  obtain ⟨back, grows⟩ := unfolds_buildJson fits s
  refine ⟨?_, toJson_buildJson fits s⟩
  rw [back.equal_eq (unfolds.extend grows)]
  exact Tree.equal_ofJson_toJson_iff unfolds.merged_eq

theorem undefined_comes_back_as_null :
    let s : Store := ⟨#[[.float 2.5, .null]], #[⟨[("z", .integer 1), ("a", .array ⟨0⟩)], by decide⟩,
      ⟨[("u", .undefined), ("o", .object ⟨0⟩)], by decide⟩], #[]⟩
    let inner := Json.object [("a", .array [.float 2.5, .null]), ("z", .integer 1)]
    let outer := Json.object [("o", inner), ("u", .null)]
    outer.FitsValue ∧ ((buildJson outer s).2.tree? (buildJson outer s).1).map Tree.toJson = some outer ∧
      s.Acyclic (.object ⟨0⟩) ∧
      (buildJson (s.tree (.object ⟨0⟩)).toJson s).2.equal
        (buildJson (s.tree (.object ⟨0⟩)).toJson s).1 (.object ⟨0⟩) = true ∧
      s.Acyclic (.object ⟨1⟩) ∧
      ¬(buildJson (s.tree (.object ⟨1⟩)).toJson s).2.equal
        (buildJson (s.tree (.object ⟨1⟩)).toJson s).1 (.object ⟨1⟩) = true := by
  intro s inner outer
  let items : Tree := .array [.float 2.5, .null]
  let fields : Tree := .object [("z", .integer 1), ("a", items)]
  have finite : (2.5 : Float).isFinite = true := by decide +kernel
  have unfoldsItems : s.Unfolds (.array ⟨0⟩) items := by
    apply @Unfolds.array _ _ [(.float 2.5, .float 2.5), (.null, .null)] rfl
    simp only [List.forall_mem_cons, List.not_mem_nil, false_imp_iff, implies_true, and_true]
    exact ⟨.float _, .null⟩
  have unfoldsFields : s.Unfolds (.object ⟨0⟩) fields := by
    apply @Unfolds.object _ _ _ [("z", .integer 1, .integer 1), ("a", .array ⟨0⟩, items)] rfl rfl
    simp only [List.forall_mem_cons, List.not_mem_nil, false_imp_iff, implies_true, and_true]
    exact ⟨.integer _, unfoldsItems⟩
  have unfoldsOuter : s.Unfolds (.object ⟨1⟩) (.object [("u", .undefined), ("o", fields)]) := by
    apply @Unfolds.object _ _ _ [("u", .undefined, .undefined), ("o", .object ⟨0⟩, fields)] rfl rfl
    simp only [List.forall_mem_cons, List.not_mem_nil, false_imp_iff, implies_true, and_true]
    exact ⟨.undefined, unfoldsFields⟩
  have fitsInner : inner.FitsValue := by
    refine .object (by unfold Json.Sorted; decide) ?_
    simp only [List.forall_mem_cons, List.not_mem_nil, false_imp_iff, implies_true, and_true]
    refine ⟨.array ?_, .integer (by decide)⟩
    simp only [List.forall_mem_cons, List.not_mem_nil, false_imp_iff, implies_true, and_true]
    exact ⟨.float finite, .null⟩
  have fits : outer.FitsValue := by
    refine .object (by unfold Json.Sorted; decide) ?_
    simp only [List.forall_mem_cons, List.not_mem_nil, false_imp_iff, implies_true, and_true]
    exact ⟨fitsInner, .null⟩
  obtain ⟨back, again⟩ := json_and_back s
  refine ⟨fits, back outer fits, ⟨_, unfoldsFields⟩, (again _ ⟨_, unfoldsFields⟩).1.2 ?_,
    ⟨_, unfoldsOuter⟩, fun same => ?_⟩
  · rw [unfoldsFields.tree_eq]
    simp only [fields, items, Tree.forall_within_object, Tree.forall_within_array, List.forall_mem_cons,
      List.not_mem_nil, false_imp_iff, implies_true, and_true]
    refine ⟨id, (Tree.forall_within_flat rfl).2 id, id, (Tree.forall_within_flat rfl).2 ?_,
      (Tree.forall_within_flat rfl).2 id⟩
    rw [Tree.LacksJson, finite, Bool.true_eq_false]
    exact id
  · have has := (again _ ⟨_, unfoldsOuter⟩).1.1 same
    rw [unfoldsOuter.tree_eq] at has
    exact has .undefined (.field List.mem_cons_self .self) trivial

end Store

end Bindlang
