import Bindlang.Proofs.Accessor.DataReading
import Bindlang.Proofs.Json.ValueConversion

namespace Bindlang.Tree

/-- Alike but for the order of fields and the signs of zeros. Non-numbers match nothing. -/
inductive Matches : Tree → Tree → Prop
  | undefined : Matches .undefined .undefined
  | null : Matches .null .null
  | boolean (b : Bool) : Matches (.boolean b) (.boolean b)
  | integer (n : Int64) : Matches (.integer n) (.integer n)
  | float {x y : Float} (same : (x == y) = true) : Matches (.float x) (.float y)
  | string (s : String) : Matches (.string s) (.string s)
  | array {items others : List Tree} (length : items.length = others.length)
      (each : ∀ (i : Nat) t u, items[i]? = some t → others[i]? = some u → Matches t u) :
      Matches (.array items) (.array others)
  | object {fields others : List (String × Tree)}
      (keys : ∀ key, key ∈ fields.map Prod.fst ↔ key ∈ others.map Prod.fst)
      (each : ∀ key t u, (key, t) ∈ fields → (key, u) ∈ others → Matches t u) :
      Matches (.object fields) (.object others)
  | function (ref : FunctionRef) : Matches (.function ref) (.function ref)

variable {t u w : Tree} {items others : List Tree} {fields fields' : List (String × Tree)} {key : String}

theorem equal_array_iff :
    (array items).equal (array others) = true ↔ items.length = others.length ∧
      ∀ (i : Nat) t u, items[i]? = some t → others[i]? = some u → t.equal u = true := by
  change equalItems items others = true ↔ _
  induction items generalizing others with
  | nil => cases others <;> simp [equalItems]
  | cons item items ih =>
    cases others with
    | nil => simp [equalItems]
    | cons other others =>
      rw [equalItems, Bool.and_eq_true, ih, List.length_cons, List.length_cons, Nat.add_right_cancel_iff]
      constructor
      · rintro ⟨first, length, each⟩
        refine ⟨length, ?_⟩
        rintro (_ | i) t u here there
        · cases here
          cases there
          exact first
        · exact each i t u here there
      · rintro ⟨length, each⟩
        exact ⟨each 0 item other rfl rfl, length, fun i => each (i + 1)⟩

theorem equal_object_iff (distinct : (fields.map Prod.fst).Nodup)
    (distinct' : (fields'.map Prod.fst).Nodup) :
    (object fields).equal (object fields') = true ↔
      (∀ key, key ∈ fields.map Prod.fst ↔ key ∈ fields'.map Prod.fst) ∧
        ∀ key t u, (key, t) ∈ fields → (key, u) ∈ fields' → t.equal u = true := by
  change (fields.length == fields'.length && containsFields fields fields') = true ↔ _
  rw [Bool.and_eq_true, beq_iff_eq, containsFields_iff]
  constructor
  · rintro ⟨length, contains⟩
    have subset : fields.map Prod.fst ⊆ fields'.map Prod.fst := by
      intro key member
      obtain ⟨field, inside, rfl⟩ := List.mem_map.1 member
      obtain ⟨other, found, _⟩ := contains field inside
      exact Keyed.isSome_find_iff.1 (found ▸ rfl)
    -- One side has no key that the other lacks, and as many.
    have perm : (fields.map Prod.fst).Perm (fields'.map Prod.fst) :=
      (distinct.subperm subset).perm_of_length_le (by simp [length])
    refine ⟨fun key => perm.mem_iff, ?_⟩
    intro key t u here there
    obtain ⟨other, found, same⟩ := contains (key, t) here
    have found' := (Keyed.find_key_iff distinct').2 there
    cases found.symm.trans found'
    exact same
  · rintro ⟨keys, each⟩
    have perm := (List.perm_ext_iff_of_nodup distinct distinct').2 keys
    refine ⟨by simpa using perm.length_eq, ?_⟩
    intro field inside
    obtain ⟨other, there, same⟩ := List.mem_map.1 ((keys field.1).1 (List.mem_map_of_mem inside))
    have found := (Keyed.find_key_iff distinct').2 there
    rw [same] at found
    exact ⟨other, found, each field.1 field.2 other.2 inside (same ▸ there)⟩

theorem equal_of_matches (matching : t.Matches u) (distinct : t.merged = t)
    (distinct' : u.merged = u) : t.equal u = true := by
  induction matching with
  | undefined | null => rfl
  | boolean b => exact beq_self_eq_true b
  | integer n => exact beq_self_eq_true n
  | float same => exact same
  | string s => exact beq_self_eq_true s
  | function ref => exact beq_self_eq_true ref
  | array length each ih =>
    have merged := merged_array_iff.1 distinct
    have merged' := merged_array_iff.1 distinct'
    refine equal_array_iff.2 ⟨length, fun i t u here there => ?_⟩
    exact ih i t u here there (merged t (List.mem_of_getElem? here))
      (merged' u (List.mem_of_getElem? there))
  | object keys each ih =>
    obtain ⟨nodup, merged⟩ := merged_object_iff.1 distinct
    obtain ⟨nodup', merged'⟩ := merged_object_iff.1 distinct'
    refine (equal_object_iff nodup nodup').2 ⟨keys, fun key t u here there => ?_⟩
    exact ih key t u here there (merged (key, t) here) (merged' (key, u) there)

theorem matches_of_equal (same : t.equal u = true) (distinct : t.merged = t)
    (distinct' : u.merged = u) : t.Matches u := by
  induction t using inductionOn generalizing u with
  | undefined =>
    cases u with
    | undefined => exact .undefined
    | _ => cases same
  | null =>
    cases u with
    | null => exact .null
    | _ => cases same
  | boolean b =>
    cases u with
    | boolean c => exact beq_iff_eq.1 same ▸ .boolean b
    | _ => cases same
  | integer n =>
    cases u with
    | integer m => exact beq_iff_eq.1 same ▸ .integer n
    | _ => cases same
  | float x =>
    cases u with
    | float y => exact .float same
    | _ => cases same
  | string s =>
    cases u with
    | string s' => exact beq_iff_eq.1 same ▸ .string s
    | _ => cases same
  | array items ih =>
    cases u with
    | array others =>
      have merged := merged_array_iff.1 distinct
      have merged' := merged_array_iff.1 distinct'
      obtain ⟨length, each⟩ := equal_array_iff.1 same
      refine .array length fun i t u here there => ?_
      have inside := List.mem_of_getElem? here
      exact ih t inside (each i t u here there) (merged t inside) (merged' u (List.mem_of_getElem? there))
    | _ => cases same
  | object fields ih =>
    cases u with
    | object fields' =>
      obtain ⟨nodup, merged⟩ := merged_object_iff.1 distinct
      obtain ⟨nodup', merged'⟩ := merged_object_iff.1 distinct'
      obtain ⟨keys, each⟩ := (equal_object_iff nodup nodup').1 same
      refine .object keys fun key t u here there => ?_
      exact ih (key, t) here (each key t u here there) (merged (key, t) here) (merged' (key, u) there)
    | _ => cases same
  | function ref =>
    cases u with
    | function ref' => exact beq_iff_eq.1 same ▸ .function ref
    | _ => cases same

/-- Trees with distinct keys are equal if and only if they match. -/
theorem equal_iff (distinct : t.merged = t) (distinct' : u.merged = u) :
    t.equal u = true ↔ t.Matches u :=
  ⟨fun same => matches_of_equal same distinct distinct',
    fun matching => equal_of_matches matching distinct distinct'⟩

theorem Matches.symm (matching : t.Matches u) : u.Matches t := by
  induction matching with
  | undefined => exact .undefined
  | null => exact .null
  | boolean b => exact .boolean b
  | integer n => exact .integer n
  | float same => exact .float (Binary64.beq_symm same)
  | string s => exact .string s
  | array length each ih => exact .array length.symm fun i u t there here => ih i t u here there
  | object keys each ih =>
    exact .object (fun key => (keys key).symm) fun key u t there here => ih key t u here there
  | function ref => exact .function ref

theorem Matches.trans (first : t.Matches u) (second : u.Matches w) : t.Matches w := by
  induction first generalizing w with
  | undefined | null | boolean | integer | string | function => exact second
  | float same =>
    cases second with
    | float same' => exact .float (Binary64.beq_trans same same')
  | @array items others length each ih =>
    cases second with
    | @array _ lasts length' each' =>
      refine .array (length.trans length') fun i t w here last => ?_
      -- The item between the two is at the same index.
      obtain ⟨inside, _⟩ := List.getElem?_eq_some_iff.1 here
      have there := List.getElem?_eq_getElem (length ▸ inside)
      exact ih i t _ here there (each' i _ w there last)
  | object keys each ih =>
    cases second with
    | object keys' each' =>
      refine .object (fun key => (keys key).trans (keys' key)) fun key t w here last => ?_
      obtain ⟨⟨_, u⟩, there, rfl⟩ := List.mem_map.1 ((keys key).1 (List.mem_map_of_mem here))
      exact ih _ t u here there (each' _ u w there last)

theorem matches_self_array_iff :
    (array items).Matches (array items) ↔ ∀ item ∈ items, item.Matches item := by
  constructor
  · intro matching item member
    cases matching with
    | array length each =>
      obtain ⟨i, here⟩ := List.mem_iff_getElem?.1 member
      exact each i item item here here
  · intro each
    refine .array rfl fun i t u here there => ?_
    cases here.symm.trans there
    exact each t (List.mem_of_getElem? here)

theorem matches_self_object_iff (distinct : (fields.map Prod.fst).Nodup) :
    (object fields).Matches (object fields) ↔ ∀ field ∈ fields, field.2.Matches field.2 := by
  constructor
  · intro matching field member
    cases matching with
    | object keys each => exact each field.1 field.2 field.2 member member
  · intro each
    refine .object (fun _ => .rfl) fun key t u here there => ?_
    cases List.inj_on_of_nodup_map distinct here there rfl
    exact each (key, t) here

theorem Matches.of_perm (same : fields.Perm fields') (matching : (Tree.object fields).Matches u) :
    (Tree.object fields').Matches u := by
  cases matching with
  | object keys each =>
    refine .object (fun key => ?_) fun key t u here => each key t u (same.mem_iff.2 here)
    rw [← (same.map Prod.fst).mem_iff]
    exact keys key

theorem isSome_member_object_iff :
    ((object fields).member? key).isSome = true ↔ key ∈ fields.map Prod.fst := by
  rw [member?, Option.isSome_map, Keyed.isSome_find_iff]

theorem mem_of_member_object (found : (object fields).member? key = some t) : (key, t) ∈ fields := by
  obtain ⟨⟨name, _⟩, there, rfl⟩ := Option.map_eq_some_iff.1 found
  have same : name = key := by simpa using List.find?_some there
  exact same ▸ List.mem_of_find?_eq_some there

theorem member_object_of_mem (distinct : (fields.map Prod.fst).Nodup) (inside : (key, t) ∈ fields) :
    (object fields).member? key = some t := by
  rw [member?, (Keyed.find_key_iff distinct).2 inside, Option.map_some]

theorem Matches.member (matching : t.Matches u) (key : String) :
    Option.Rel Matches (t.member? key) (u.member? key) := by
  cases matching with
  | undefined | null | boolean | integer | float | string | function => exact .none
  | array length each =>
    rw [member?, member?]
    cases Text.readNatural? key.toList with
    | none => exact .none
    | some i =>
      refine Option.rel_of_isSome_eq ?_ (each i)
      rw [Option.bind_some, Option.bind_some, Bool.eq_iff_iff]
      simp [length]
  | object keys each =>
    refine Option.rel_of_isSome_eq ?_ fun t u here there =>
      each key t u (mem_of_member_object here) (mem_of_member_object there)
    rw [Bool.eq_iff_iff, isSome_member_object_iff, isSome_member_object_iff]
    exact keys key

theorem matches_object_iff (distinct : (fields.map Prod.fst).Nodup)
    (distinct' : (fields'.map Prod.fst).Nodup) :
    (object fields).Matches (object fields') ↔
      ∀ key, Option.Rel Matches ((object fields).member? key) ((object fields').member? key) := by
  refine ⟨Matches.member, fun each => .object (fun key => ?_) fun key t u here there => ?_⟩
  · have both := (each key).isSome_eq
    rwa [Bool.eq_iff_iff, isSome_member_object_iff, isSome_member_object_iff] at both
  · have members := each key
    rw [member_object_of_mem distinct here, member_object_of_mem distinct' there] at members
    cases members with
    | some matching => exact matching

end Bindlang.Tree
