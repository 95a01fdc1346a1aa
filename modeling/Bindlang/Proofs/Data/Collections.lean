import Mathlib.Data.List.Forall2

namespace Option

variable {α β γ : Type} {R R' : α → β → Prop} {x : Option α} {y : Option β}

theorem rel_map {f : γ → α} {g : γ → β} {z : Option γ} (each : ∀ c, z = some c → R (f c) (g c)) :
    Option.Rel R (z.map f) (z.map g) := by
  cases z with
  | none => exact .none
  | some c => exact .some (each c rfl)

theorem rel_of_isSome_eq (both : x.isSome = y.isSome)
    (each : ∀ a b, x = some a → y = some b → R a b) : Option.Rel R x y := by
  cases x with
  | none =>
    cases y with
    | none => exact .none
    | some b => cases both
  | some a =>
    cases y with
    | none => cases both
    | some b => exact .some (each a b rfl rfl)

theorem Rel.mono (rel : Option.Rel R x y) (weaker : ∀ a b, R a b → R' a b) : Option.Rel R' x y := by
  cases rel with
  | none => exact .none
  | some holds => exact .some (weaker _ _ holds)

theorem Rel.isSome_eq (rel : Option.Rel R x y) : x.isSome = y.isSome := by
  cases rel <;> rfl

end Option

namespace Array

variable {α : Type} {xs ys : Array α} {x y : α} {f : α → α} {i j : Nat}

theorem size_le_of_getElem? (kept : ∀ (i : Nat) x, xs[i]? = some x → ys[i]? = some x) :
    xs.size ≤ ys.size := by
  by_contra fewer
  have inside : ys.size < xs.size := by omega
  have there := kept ys.size xs[ys.size] (getElem?_eq_getElem inside)
  simp at there

theorem getElem?_push_of_some (y : α) (here : xs[i]? = some x) : (xs.push y)[i]? = some x := by
  obtain ⟨inside, _⟩ := getElem?_eq_some_iff.1 here
  rwa [getElem?_push, if_neg (by omega)]

theorem getElem?_push_cases (here : (xs.push y)[i]? = some x) : xs[i]? = some x ∨ x = y := by
  rw [getElem?_push] at here
  split at here
  · exact .inr (Option.some.inj here).symm
  · exact .inl here

theorem getElem?_modify_cases (here : (xs.modify j f)[i]? = some x) :
    xs[i]? = some x ∨ ∃ y, xs[i]? = some y ∧ x = f y := by
  rw [getElem?_modify] at here
  split at here
  · obtain ⟨y, there, same⟩ := Option.map_eq_some_iff.1 here
    exact .inr ⟨y, there, same.symm⟩
  · exact .inl here

theorem getElem?_modify_of_ne (here : xs[i]? = some x) (ne : j ≠ i) :
    (xs.modify j f)[i]? = some x := by
  rw [getElem?_modify, if_neg ne, here]

theorem getElem?_modify_of_kept (kept : ∀ (i : Nat) x, xs[i]? = some x → ys[i]? = some x) (i : Nat)
    (x : α) (here : (xs.modify j f)[i]? = some x) : (ys.modify j f)[i]? = some x := by
  rw [getElem?_modify] at here ⊢
  split
  · rename_i same
    rw [if_pos same] at here
    obtain ⟨y, there, rfl⟩ := Option.map_eq_some_iff.1 here
    rw [kept i y there, Option.map_some]
  · rename_i other
    rw [if_neg other] at here
    exact kept i x here

theorem getD_getElem?_modify (xs : Array α) (f : α → α) (d : α) (i j : Nat) :
    (xs.modify j f)[i]?.getD d =
      if i = j ∧ j < xs.size then f (xs[i]?.getD d) else xs[i]?.getD d := by
  rw [getElem?_modify]
  by_cases same : i = j
  · subst same
    by_cases inside : i < xs.size
    · simp [inside]
    · simp [inside]
  · rw [if_neg (Ne.symm same), if_neg fun both => same both.1]

end Array

namespace List

variable {α β γ : Type}

theorem getElem?_concat_cases (xs : List α) (x : α) (i : Nat) :
    (xs ++ [x])[i]? = xs[i]? ∨ (xs ++ [x])[i]? = some x := by
  rcases Nat.lt_trichotomy i xs.length with inside | rfl | outside
  · exact .inl (getElem?_append_left inside)
  · exact .inr getElem?_concat_length
  · refine .inl ?_
    rw [getElem?_eq_none (by simp; omega), getElem?_eq_none (Nat.le_of_lt outside)]

theorem map_eq_self_iff {f : α → α} {as : List α} : as.map f = as ↔ ∀ a ∈ as, f a = a := by
  have pointwise : as.map f = as.map id ↔ ∀ a ∈ as, f a = id a := map_inj_left
  rwa [map_id] at pointwise

theorem map_values_eq_self_iff {f : α → α} {as : List (β × α)} :
    (as.map fun a => (a.1, f a.2)) = as ↔ ∀ a ∈ as, f a.2 = a.2 := by
  rw [map_eq_self_iff]
  simp only [Prod.ext_iff, true_and]

theorem exists_pairs_of_map_eq_map {f : α → γ} {g : β → γ} {as : List α} {bs : List β}
    (same : as.map f = bs.map g) :
    ∃ pairs : List (α × β), as = pairs.map Prod.fst ∧ bs = pairs.map Prod.snd ∧
      ∀ m ∈ pairs, f m.1 = g m.2 := by
  rw [← forall₂_eq_eq_eq, forall₂_map_left_iff, forall₂_map_right_iff, forall₂_iff_zip] at same
  obtain ⟨long, each⟩ := same
  exact ⟨as.zip bs, (map_fst_zip (Nat.le_of_eq long)).symm, (map_snd_zip (Nat.le_of_eq long.symm)).symm,
    fun m member => each member⟩

theorem mapM_map_eq_some {f : α → Option β} {g : γ → α} {h : γ → β} {cs : List γ}
    (each : ∀ c ∈ cs, f (g c) = some (h c)) : (cs.map g).mapM f = some (cs.map h) := by
  induction cs with
  | nil => rfl
  | cons c cs ih =>
    obtain ⟨first, others⟩ := forall_mem_cons.1 each
    rw [map_cons, mapM_cons, first, ih others]
    rfl

theorem mapM_congr_left {m : Type → Type} [Monad m] [LawfulMonad m] {f g : α → m β} {as : List α}
    (same : ∀ a ∈ as, f a = g a) : as.mapM f = as.mapM g := by
  induction as with
  | nil => rfl
  | cons a as ih =>
    obtain ⟨first, others⟩ := forall_mem_cons.1 same
    rw [mapM_cons, mapM_cons, first, ih others]

section Runs

variable {p : α → Bool} {run rest : List α}

theorem takeWhile_append_stopped (inside : ∀ a ∈ run, p a = true)
    (outside : ∀ a ∈ rest.head?, p a = false) : (run ++ rest).takeWhile p = run := by
  have taken : rest.takeWhile p = [] := by
    cases rest with
    | nil => rfl
    | cons a more => simp [outside a rfl]
  rw [takeWhile_append_of_pos inside, taken, append_nil]

theorem dropWhile_append_stopped (inside : ∀ a ∈ run, p a = true)
    (outside : ∀ a ∈ rest.head?, p a = false) : (run ++ rest).dropWhile p = rest := by
  have left : rest.dropWhile p = rest := by
    cases rest with
    | nil => rfl
    | cons a more => simp [outside a rfl]
  rw [dropWhile_append_of_pos inside, left]

theorem stopped_of_dropWhile (p : α → Bool) (as : List α) :
    ∀ a ∈ (as.dropWhile p).head?, p a = false := by
  intro a first
  have stopped := head?_dropWhile_not p as
  rwa [Option.mem_def.1 first] at stopped

end Runs

theorem not_mem_of_mem_splitOn [DecidableEq α] {separator : α} {as part : List α}
    (member : part ∈ as.splitOn separator) : separator ∉ part := by
  induction as generalizing part with
  | nil =>
    rw [splitOn_nil, mem_singleton] at member
    rw [member]
    exact not_mem_nil
  | cons a as ih =>
    rw [splitOn_cons_eq_if_modifyHead] at member
    split at member
    · rcases mem_cons.1 member with rfl | behind
      · exact not_mem_nil
      · exact ih behind
    · rename_i other
      obtain ⟨first, parts, cut⟩ := exists_cons_of_ne_nil (splitOn_ne_nil separator as)
      rw [cut] at ih member
      rcases mem_cons.1 member with rfl | behind
      · rw [mem_cons, not_or]
        exact ⟨fun same => other (by simp [same]), ih mem_cons_self⟩
      · exact ih (mem_cons_of_mem first behind)

def greatest (size : α → Nat) : List α → Nat
  | [] => 0
  | a :: as => max (size a) (greatest size as)

variable {size : α → Nat} {as : List α} {n : Nat}

theorem greatest_le_iff : greatest size as ≤ n ↔ ∀ a ∈ as, size a ≤ n := by
  induction as with
  | nil => simp [greatest]
  | cons a as ih => simp only [greatest, Nat.max_le, ih, forall_mem_cons]

theorem le_greatest {a : α} (member : a ∈ as) : size a ≤ greatest size as :=
  greatest_le_iff.1 (Nat.le_refl _) a member

theorem exists_of_le_greatest (pos : 0 < n) (le : n ≤ greatest size as) : ∃ a ∈ as, n ≤ size a := by
  by_contra none
  simp only [not_exists, not_and, Nat.not_le] at none
  have := greatest_le_iff.2 fun a member => Nat.le_sub_one_of_lt (none a member)
  omega

theorem greatest_add_le_iff (k n : Nat) :
    greatest size as + 1 + k ≤ n ↔ k < n ∧ ∀ a ∈ as, size a + (k + 1) ≤ n := by
  have each := @greatest_le_iff α size as (n - (k + 1))
  constructor
  · intro whole
    refine ⟨by omega, fun a member => ?_⟩
    have := each.1 (by omega) a member
    omega
  · rintro ⟨room, whole⟩
    have := each.2 fun a member => Nat.le_sub_of_add_le (whole a member)
    omega

end List
