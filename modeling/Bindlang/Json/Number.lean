import Bindlang.Decimal.Reader
import Bindlang.Json

namespace Bindlang.Json

/-- Digits before and behind the point, and the sign and the digits of the exponent. -/
structure Numeral where
  negative : Bool
  whole : List Char
  part : List Char
  exponent : Option (Bool × List Char)
  deriving DecidableEq, Repr

namespace Numeral

def digits? (text : List Char) : Option (List Char × List Char) :=
  match text.takeWhile Char.isDigit with
  | [] => none
  | digits => some (digits, text.dropWhile Char.isDigit)

def whole? (text : List Char) : Option (List Char × List Char) := do
  let (digits, rest) ← digits? text
  if 1 < digits.length ∧ digits.head? = some '0' then none else some (digits, rest)

def part? : List Char → Option (List Char × List Char)
  | '.' :: rest => digits? rest
  | text => some ([], text)

def exponent? : List Char → Option (Option (Bool × List Char) × List Char)
  | [] => some (none, [])
  | e :: rest =>
    if e = 'e' ∨ e = 'E' then do
      let (negative, rest) := Decimal.splitSign rest
      let (digits, rest) ← digits? rest
      return (some (negative, digits), rest)
    else some (none, e :: rest)

def read? (text : List Char) : Option (Numeral × List Char) := do
  let (negative, text) :=
    match text with
    | '-' :: rest => (true, rest)
    | _ => (false, text)
  let (whole, text) ← whole? text
  let (part, text) ← part? text
  let (exponent, text) ← exponent? text
  return (⟨negative, whole, part, exponent⟩, text)

/-- Appends digits as long as the significand fits 64 bits, and counts them. -/
def accumulate (significand : Nat) : List Char → Nat × Nat
  | [] => (significand, 0)
  | d :: digits =>
    let next := Nat.ofDigitChars 10 [d] significand
    if next < UInt64.size then
      let (significand, count) := accumulate next digits
      (significand, count + 1)
    else (significand, 0)

/-- Multiplies by a power of ten, in steps that are floats themselves. Fails on overflow. -/
def scale? (x : Float) (exponent : Int) : Option Float :=
  if exponent < -308 then
    if x = 0 then some x else scale? (x / (Decimal.mk 1 308).toFloat) (exponent + 308)
  else if exponent < 0 then some (x / (Decimal.mk 1 (-exponent)).toFloat)
  else if exponent ≤ 308 then
    let product := x * (Decimal.mk 1 exponent).toFloat
    if product.isInf then none else some product
  else if x = 0 then some x
  else none
termination_by (-exponent).toNat

def signed (negative : Bool) (x : Float) : Float :=
  if negative then -x else x

/-- Digits that do not fit count as zeros before the point and not at all behind it. -/
def float? (n : Numeral) : Option Float :=
  let (significand, fitting) := accumulate 0 n.whole
  let (significand, places) := accumulate significand n.part
  let shift : Int := (n.whole.length - fitting : Nat) - (places : Int)
  let magnitude := (Decimal.mk significand 0).toFloat
  (signed n.negative ·) <$>
    match n.exponent with
    | none => scale? magnitude shift
    | some (negative, digits) =>
      let power := Nat.ofDigitChars 10 digits 0
      if power ≤ Int32.maxValue.toInt.toNat then
        scale? magnitude (if negative then shift - power else shift + power)
      else if significand = 0 ∨ negative then some 0
      else none

/-- A negative zero is a float, and so is an integer that does not fit 64 bits. -/
def value? (n : Numeral) : Option Json :=
  let float := n.float?.map Json.float
  if n.part = [] ∧ n.exponent = none then
    let magnitude := Nat.ofDigitChars 10 n.whole 0
    if n.negative then
      if magnitude ≠ 0 ∧ Int64.minValue.toInt ≤ -magnitude then some (.integer (-magnitude))
      else float
    else if magnitude < UInt64.size then some (.integer magnitude)
    else float
  else float

end Numeral

end Bindlang.Json
