import Bindlang.Decimal

namespace Bindlang.Decimal

/-- Which of two decimals is taken when both are equally near. -/
inductive Tie
  | up
  | even
  deriving DecidableEq, Repr

/-- Numerator and denominator of `m * 2 ^ q / 10 ^ k`. -/
def ratio (m : Nat) (q k : Int) : Nat × Nat :=
  (m * Nat.pow 2 q.toNat * Nat.pow 10 (-k).toNat, Nat.pow 2 (-q).toNat * Nat.pow 10 k.toNat)

def digitCount (n : Nat) : Nat :=
  (Nat.toDigits 10 n).length

def leadingExponent (m : Nat) (q : Int) : Int :=
  let (num, den) := ratio m q (min q 0)
  digitCount (num / den) - 1 + min q 0

/-- Of two multiples of `10 ^ k` one that reads back as `x`: the nearer, if both do. -/
def onGrid? (tie : Tie) (x : Float) (m : Nat) (q k : Int) : Option Decimal :=
  let (num, den) := ratio m q k
  let low : Decimal := ⟨num / den, k⟩
  let high : Decimal := ⟨num / den + 1, k⟩
  if low.toFloat = x then
    if high.toFloat = x then
      match compare (2 * (num % den)) den with
      | .lt => some low
      | .gt => some high
      | .eq => if tie = .even ∧ low.significand % 2 = 0 then some low else some high
    else some low
  else if high.toFloat = x then some high
  else none

/-- The coarsest grid with a decimal that reads back gives it, or else the exact value. -/
def shortest (tie : Tie) (x : Float) (m : Nat) (q : Int) : Decimal :=
  let top := leadingExponent m q
  let found := (List.range 17).findSome? fun (i : Nat) => onGrid? tie x m q (top - i)
  (found.getD (ofBinary m q)).trim

theorem onGrid_reads {tie : Tie} {x : Float} {m : Nat} {q k : Int} {d : Decimal}
    (found : onGrid? tie x m q k = some d) : d.toFloat = x := by
  unfold onGrid? at found
  simp only at found
  repeat' split at found
  all_goals cases found
  all_goals assumption

end Bindlang.Decimal
