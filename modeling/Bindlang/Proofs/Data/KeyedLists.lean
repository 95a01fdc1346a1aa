import Bindlang.Keyed
import Mathlib.Data.List.Nodup

namespace Bindlang.Keyed

variable {α κ : Type} [DecidableEq κ] (key : α → κ)

/-- One item for each key, in the order in which the keys come first, each the last under it. -/
structure Merges (items kept : List α) : Prop where
  keys : kept.map key = (items.map key).eraseDups
  last : ∀ item ∈ kept, items.reverse.find? (fun other => key other = key item) = some item

variable {key} {items kept : List α}

theorem mem_of_mem_put {item other : α} (member : other ∈ put key item kept) :
    other = item ∨ other ∈ kept := by
  induction kept with
  | nil => exact .inl (by simpa [put] using member)
  | cons first kept ih =>
    unfold put at member
    split at member
    · exact (List.mem_cons.1 member).imp_right (List.mem_cons_of_mem first)
    · rcases List.mem_cons.1 member with rfl | member
      · exact .inr List.mem_cons_self
      · exact (ih member).imp_right (List.mem_cons_of_mem first)

theorem mem_put {item other : α} (distinct : (kept.map key).Nodup)
    (member : other ∈ put key item kept) :
    other = item ∨ (other ∈ kept ∧ key item ≠ key other) := by
  induction kept with
  | nil => exact .inl (by simpa [put] using member)
  | cons first kept ih =>
    obtain ⟨absent, distinct⟩ := List.nodup_cons.1 distinct
    by_cases same : key first = key item
    · rw [put, if_pos same, List.mem_cons] at member
      rcases member with rfl | member
      · exact .inl rfl
      · refine .inr ⟨List.mem_cons_of_mem _ member, fun shared => absent ?_⟩
        rw [same, shared]
        exact List.mem_map_of_mem member
    · rw [put, if_neg same, List.mem_cons] at member
      rcases member with rfl | member
      · exact .inr ⟨List.mem_cons_self, fun shared => same shared.symm⟩
      · rcases ih distinct member with here | ⟨behind, different⟩
        · exact .inl here
        · exact .inr ⟨List.mem_cons_of_mem _ behind, different⟩

theorem put_of_fresh {item : α} (fresh : key item ∉ kept.map key) :
    put key item kept = kept ++ [item] := by
  induction kept with
  | nil => rfl
  | cons other others ih =>
    rw [List.map_cons, List.mem_cons, not_or] at fresh
    rw [put, if_neg fun same => fresh.1 same.symm, ih fresh.2, List.cons_append]

theorem putAll_of_distinct (distinct : ((kept ++ items).map key).Nodup) :
    putAll key kept items = kept ++ items := by
  induction items generalizing kept with
  | nil => rw [List.append_nil, putAll, List.foldl_nil]
  | cons item items ih =>
    have fresh : key item ∉ kept.map key := by
      rw [List.map_append, List.nodup_append] at distinct
      exact fun member => distinct.2.2 _ member _ List.mem_cons_self rfl
    rw [List.append_cons] at distinct ⊢
    rw [← ih distinct, ← put_of_fresh fresh, putAll, putAll, List.foldl_cons]

theorem put_put_of_same {item other : α} (same : key other = key item) (kept : List α) :
    put key item (put key other kept) = put key item kept := by
  induction kept with
  | nil => simp [put, same]
  | cons first kept ih =>
    by_cases here : key first = key other
    · simp [put, here, same]
    · have notItem : key first ≠ key item := same ▸ here
      simp [put, here, notItem, ih]

theorem put_put_of_different {item other : α} (different : key other ≠ key item)
    (present : key item ∈ kept.map key) :
    put key item (put key other kept) = put key other (put key item kept) := by
  induction kept with
  | nil => cases present
  | cons first kept ih =>
    by_cases isItem : key first = key item
    · simp [put, isItem, different.symm]
    · by_cases isOther : key first = key other
      · simp [put, isOther, different]
      · have behind : key item ∈ kept.map key := by
          rw [List.map_cons, List.mem_cons] at present
          exact present.resolve_left fun same => isItem same.symm
        simp [put, isItem, isOther, ih behind]

theorem put_putAll_of_present {item : α} (absent : key item ∉ items.map key)
    (present : key item ∈ kept.map key) :
    put key item (putAll key kept items) = putAll key (put key item kept) items := by
  induction items generalizing kept with
  | nil => rfl
  | cons other items ih =>
    rw [List.map_cons, List.mem_cons, not_or] at absent
    have still : key item ∈ (put key other kept).map key := by
      rw [map_key_put]
      split
      · exact present
      · exact List.mem_append_left _ present
    have different : key other ≠ key item := Ne.symm absent.1
    have moved := ih absent.2 still
    rwa [put_put_of_different different present] at moved

theorem putAll_put {item : α} (distinct : (items.map key).Nodup) (kept : List α) :
    putAll key kept (put key item items) = put key item (putAll key kept items) := by
  induction items generalizing kept with
  | nil => rfl
  | cons other items ih =>
    obtain ⟨absent, distinct⟩ := List.nodup_cons.1 distinct
    by_cases same : key other = key item
    · have present : key item ∈ (put key other kept).map key := by
        rw [map_key_put, ← same]
        split
        · assumption
        · exact List.mem_append_right _ List.mem_cons_self
      rw [same] at absent
      calc
        putAll key kept (put key item (other :: items))
        _ = putAll key (put key item kept) items := by
          rw [put, if_pos same]
          rfl
        _ = putAll key (put key item (put key other kept)) items := by
          rw [put_put_of_same same]
        _ = put key item (putAll key kept (other :: items)) :=
          (put_putAll_of_present absent present).symm
    · rw [put, if_neg same]
      exact ih distinct (put key other kept)

theorem ofList_of_distinct (distinct : (items.map key).Nodup) : ofList key items = items :=
  putAll_of_distinct distinct

theorem mem_of_mem_putAll {item : α} (member : item ∈ putAll key kept items) :
    item ∈ kept ∨ item ∈ items := by
  induction items generalizing kept with
  | nil => exact .inl member
  | cons first items ih =>
    rcases ih member with before | behind
    · rcases mem_of_mem_put before with rfl | before
      · exact .inr List.mem_cons_self
      · exact .inl before
    · exact .inr (List.mem_cons_of_mem first behind)

theorem mem_of_mem_ofList {item : α} (member : item ∈ ofList key items) : item ∈ items := by
  simpa using mem_of_mem_putAll member

theorem find_key_iff {item : α} (distinct : (items.map key).Nodup) :
    find? key (key item) items = some item ↔ item ∈ items := by
  constructor
  · exact List.mem_of_find?_eq_some
  · intro member
    induction items with
    | nil => cases member
    | cons first others ih =>
      obtain ⟨absent, distinct⟩ := List.nodup_cons.1 distinct
      rcases List.mem_cons.1 member with rfl | behind
      · simp [find?]
      · have different : key first ≠ key item := fun same =>
          absent (same ▸ List.mem_map_of_mem behind)
        have found := ih distinct behind
        unfold find? at found ⊢
        simpa [different] using found

theorem isSome_find_iff {k : κ} : (find? key k items).isSome = true ↔ k ∈ items.map key := by
  simp [find?]

theorem perm_of_find {others : List α} (distinct : (items.map key).Nodup)
    (distinctOthers : (others.map key).Nodup)
    (same : ∀ k, find? key k items = find? key k others) : items.Perm others := by
  apply (List.perm_ext_iff_of_nodup (.of_map key distinct) (.of_map key distinctOthers)).2
  intro item
  rw [← find_key_iff distinct, ← find_key_iff distinctOthers, same]

section Map

variable {β : Type} {key' : β → κ} {f : α → β}

theorem map_put (same : ∀ item, key' (f item) = key item) (item : α) (items : List α) :
    (put key item items).map f = put key' (f item) (items.map f) := by
  induction items with
  | nil => rfl
  | cons other others ih =>
    rw [List.map_cons, put, put, same, same]
    split
    · rw [List.map_cons]
    · rw [List.map_cons, ih]

theorem map_putAll (same : ∀ item, key' (f item) = key item) (start items : List α) :
    (putAll key start items).map f = putAll key' (start.map f) (items.map f) := by
  induction items generalizing start with
  | nil => rfl
  | cons item items ih =>
    have others := ih (put key item start)
    rwa [map_put same] at others

theorem map_ofList (same : ∀ item, key' (f item) = key item) (items : List α) :
    (ofList key items).map f = ofList key' (items.map f) :=
  map_putAll same [] items

theorem map_values_ofList {γ : Type} (f : α → γ) (items : List (κ × α)) :
    (ofList Prod.fst items).map (fun item => (item.1, f item.2)) =
      ofList Prod.fst (items.map fun item => (item.1, f item.2)) := by
  apply map_ofList
  exact fun _ => rfl

end Map

theorem Merges.put (merges : Merges key items kept) (distinct : (kept.map key).Nodup) (item : α) :
    Merges key (items ++ [item]) (put key item kept) where
  keys := by
    have present : key item ∈ kept.map key ↔ key item ∈ items.map key := by
      rw [merges.keys, List.mem_eraseDups]
    rw [map_key_put, List.map_append, List.eraseDups_append, merges.keys]
    rw [merges.keys] at present
    generalize items.map key = keys at present ⊢
    by_cases old : key item ∈ keys
    · simp [present, old, List.cons_removeAll]
    · simp [present, old, List.cons_removeAll, List.eraseDups_cons]
  last := by
    intro other member
    rw [List.reverse_append, List.reverse_singleton, List.singleton_append, List.find?_cons]
    rcases mem_put distinct member with rfl | ⟨kept, different⟩
    · simp
    · simpa [different] using merges.last other kept

theorem Merges.putAll (merges : Merges key items kept) (distinct : (kept.map key).Nodup)
    (more : List α) : Merges key (items ++ more) (putAll key kept more) := by
  induction more generalizing items kept with
  | nil => simpa [Keyed.putAll] using merges
  | cons item more ih =>
    simpa [Keyed.putAll] using ih (merges.put distinct item) (nodup_put key distinct)

theorem merges_ofList (items : List α) : Merges key items (ofList key items) := by
  have nothing : Merges key [] ([] : List α) := ⟨rfl, by simp⟩
  exact nothing.putAll List.nodup_nil items

theorem Merges.eq_filterMap (merges : Merges key items kept) :
    kept = (items.map key).eraseDups.filterMap
      fun k => items.reverse.find? fun other => key other = k := by
  rw [← merges.keys, List.filterMap_map]
  conv => lhs; rw [← List.filterMap_some (l := kept)]
  exact List.filterMap_congr fun item member => (merges.last item member).symm

theorem merges_iff : Merges key items kept ↔ kept = ofList key items := by
  constructor
  · intro merges
    have kept : Merges key items (ofList key items) := merges_ofList items
    rw [merges.eq_filterMap, kept.eq_filterMap]
  · rintro rfl
    exact merges_ofList items

end Bindlang.Keyed
