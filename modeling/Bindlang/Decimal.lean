namespace Bindlang

/-- The number `significand * 10 ^ exponent`. -/
structure Decimal where
  significand : Nat
  exponent : Int
  deriving DecidableEq, Repr

namespace Decimal

def trim (d : Decimal) : Decimal :=
  if d.significand = 0 then ⟨0, 0⟩
  else if d.significand % 10 = 0 then trim ⟨d.significand / 10, d.exponent + 1⟩
  else d
termination_by d.significand

/-- The nearest float, a tie going to the even significand; infinity beyond the largest. -/
def toFloat (d : Decimal) : Float :=
  .ofModel (.ofScientific d.trim.significand d.trim.exponent)

theorem trim_zero (e : Int) : trim ⟨0, e⟩ = ⟨0, 0⟩ := by
  rw [trim]
  rfl

theorem trim_ten_mul (s : Nat) (e : Int) : trim ⟨10 * s, e⟩ = trim ⟨s, e + 1⟩ := by
  by_cases zero : s = 0
  · subst zero
    rw [Nat.mul_zero, trim_zero, trim_zero]
  · have whole : 10 * s ≠ 0 := by omega
    rw [trim]
    simp [whole]

/-- The decimal with the value `m * 2 ^ q`. -/
def ofBinary (m : Nat) (q : Int) : Decimal :=
  if 0 ≤ q then ⟨m * Nat.pow 2 q.toNat, 0⟩ else ⟨m * Nat.pow 5 (-q).toNat, q⟩

end Decimal

end Bindlang
