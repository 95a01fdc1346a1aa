namespace Bindlang.Keyed

variable {α κ : Type} [DecidableEq κ] (key : α → κ)

def put (item : α) : List α → List α
  | [] => [item]
  | other :: others => if key other = key item then item :: others else other :: put item others

def putAll (start items : List α) : List α :=
  items.foldl (fun kept item => put key item kept) start

def ofList (items : List α) : List α :=
  putAll key [] items

def find? (k : κ) (items : List α) : Option α :=
  items.find? fun item => key item = k

def contains (k : κ) (items : List α) : Bool :=
  items.any fun item => key item = k

theorem map_key_put (item : α) (items : List α) :
    (put key item items).map key =
      if key item ∈ items.map key then items.map key else items.map key ++ [key item] := by
  induction items with
  | nil => rfl
  | cons other others ih =>
    by_cases same : key other = key item
    · simp [put, same]
    · have different : key item ≠ key other := fun h => same h.symm
      simp only [put, same, ↓reduceIte, List.map_cons, ih, List.mem_cons, different, false_or]
      split <;> rfl

theorem nodup_put {item : α} {items : List α} (distinct : (items.map key).Nodup) :
    ((put key item items).map key).Nodup := by
  rw [map_key_put]
  split
  · exact distinct
  · rename_i absent
    rw [List.nodup_append]
    refine ⟨distinct, by simp, ?_⟩
    intro k member k' last
    rw [List.mem_singleton.1 last]
    exact fun same => absent (same ▸ member)

theorem nodup_putAll {start : List α} (distinct : (start.map key).Nodup) (items : List α) :
    ((putAll key start items).map key).Nodup := by
  induction items generalizing start with
  | nil => exact distinct
  | cons item items ih => exact ih (nodup_put key distinct)

theorem nodup_ofList (items : List α) : ((ofList key items).map key).Nodup :=
  nodup_putAll key (by simp) items

theorem find_put (k : κ) (item : α) (items : List α) :
    find? key k (put key item items) = if key item = k then some item else find? key k items := by
  induction items with
  | nil => by_cases this : key item = k <;> simp [put, find?, this]
  | cons other others ih =>
    unfold find? at ih
    by_cases same : key other = key item
    · by_cases this : key item = k <;> simp [put, find?, same, this]
    · by_cases found : key other = k
      · subst found
        simp [put, find?, same, Ne.symm same]
      · by_cases this : key item = k <;> simp [put, find?, same, found, ih, this]

end Bindlang.Keyed
