namespace Except

variable {ε α β : Type}

@[simp] theorem ok_bind (a : α) (f : α → Except ε β) : Except.ok a >>= f = f a := rfl

@[simp] theorem error_bind (e : ε) (f : α → Except ε β) : Except.error e >>= f = .error e := rfl

@[simp] theorem pure_eq_ok (a : α) : (pure a : Except ε α) = .ok a := rfl

@[simp] theorem bind_ok (x : Except ε α) : x >>= Except.ok = x := by
  cases x <;> rfl

theorem bind_eq_ok_iff {x : Except ε α} {f : α → Except ε β} {b : β} :
    x >>= f = .ok b ↔ ∃ a, x = .ok a ∧ f a = .ok b := by
  cases x with
  | ok a => simp
  | error e => simp

theorem bind_eq_error_iff {x : Except ε α} {f : α → Except ε β} {e : ε} :
    x >>= f = .error e ↔ x = .error e ∨ ∃ a, x = .ok a ∧ f a = .error e := by
  cases x with
  | ok a => simp
  | error e => simp

theorem map_eq_ok_iff {x : Except ε α} {f : α → β} {b : β} :
    x.map f = .ok b ↔ ∃ a, x = .ok a ∧ f a = b := by
  cases x with
  | ok a => simp [Except.map]
  | error e => simp [Except.map]

theorem map_eq_error_iff {x : Except ε α} {f : α → β} {e : ε} :
    x.map f = .error e ↔ x = .error e := by
  cases x with
  | ok a => simp [Except.map]
  | error e => simp [Except.map]

theorem mapError_eq_ok_iff {ε' : Type} {x : Except ε α} {wrap : ε → ε'} {a : α} :
    x.mapError wrap = .ok a ↔ x = .ok a := by
  constructor
  · intro mapped
    cases x with
    | ok b =>
      cases mapped
      rfl
    | error e => cases mapped
  · rintro rfl
    rfl

end Except

namespace Bindlang

variable {ε ε' α α' β β' : Type} {onError : ε → ε'} {Value : α → α' → Prop} {Result : β → β' → Prop}
  {x : Except ε α} {y : Except ε' α'}

/-- Values that belong together, or the second is the error of the first one, changed. -/
inductive Corresponds (onError : ε → ε') (Value : α → α' → Prop) :
    Except ε α → Except ε' α' → Prop
  | ok {a : α} {a' : α'} (together : Value a a') : Corresponds onError Value (.ok a) (.ok a')
  | error (e : ε) : Corresponds onError Value (.error e) (.error (onError e))

theorem Corresponds.bind {f : α → Except ε β} {f' : α' → Except ε' β'}
    (first : Corresponds onError Value x y)
    (next : ∀ a a', Value a a' → Corresponds onError Result (f a) (f' a')) :
    Corresponds onError Result (x >>= f) (y >>= f') := by
  cases first with
  | ok together => exact next _ _ together
  | error e => exact .error e

theorem Corresponds.map {f : α → β} {f' : α' → β'} (first : Corresponds onError Value x y)
    (next : ∀ a a', Value a a' → Result (f a) (f' a')) :
    Corresponds onError Result (x.map f) (y.map f') := by
  cases first with
  | ok together => exact .ok (next _ _ together)
  | error e => exact .error e

theorem Corresponds.map_right {f' : α' → β'} {Result : α → β' → Prop}
    (first : Corresponds onError Value x y) (next : ∀ a a', Value a a' → Result a (f' a')) :
    Corresponds onError Result x (y.map f') := by
  cases first with
  | ok together => exact .ok (next _ _ together)
  | error e => exact .error e

theorem Corresponds.mapError {ε₁ ε₁' : Type} {wrap : ε → ε₁} {wrap' : ε' → ε₁'}
    {onWrapped : ε₁ → ε₁'} (first : Corresponds onError Value x y)
    (same : ∀ e, onWrapped (wrap e) = wrap' (onError e)) :
    Corresponds onWrapped Value (x.mapError wrap) (y.mapError wrap') := by
  cases first with
  | ok together => exact .ok together
  | error e =>
    have wrapped : Corresponds onWrapped Value (.error (wrap e)) (.error (onWrapped (wrap e))) :=
      .error (wrap e)
    rw [same] at wrapped
    exact wrapped

theorem Corresponds.ite {p q : Prop} [Decidable p] [Decidable q] {x₁ x₂ : Except ε α}
    {y₁ y₂ : Except ε' α'} (same : p ↔ q) (first : Corresponds onError Value x₁ y₁)
    (second : Corresponds onError Value x₂ y₂) :
    Corresponds onError Value (if p then x₁ else x₂) (if q then y₁ else y₂) := by
  by_cases holds : p
  · rwa [if_pos holds, if_pos (same.1 holds)]
  · rwa [if_neg holds, if_neg (mt same.2 holds)]

theorem Corresponds.exists_ok {a : α} (corresponds : Corresponds onError Value (.ok a) y) :
    ∃ a', y = .ok a' ∧ Value a a' := by
  cases corresponds with
  | ok together => exact ⟨_, rfl, together⟩

theorem Corresponds.eq_error {e : ε} (corresponds : Corresponds onError Value (.error e) y) :
    y = .error (onError e) := by
  cases corresponds with
  | error => rfl

theorem Corresponds.eq_map {f : α → α'}
    (corresponds : Corresponds onError (fun a a' => a' = f a) x y) :
    y = (x.map f).mapError onError := by
  cases corresponds with
  | ok same => exact congrArg Except.ok same
  | error e => rfl

end Bindlang
