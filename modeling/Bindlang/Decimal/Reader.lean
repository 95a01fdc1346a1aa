import Bindlang.Decimal
import Bindlang.Text.Integer

namespace Bindlang.Decimal

def splitSign : List Char → Bool × List Char
  | '-' :: rest => (true, rest)
  | '+' :: rest => (false, rest)
  | text => (false, text)

def readExponent? : List Char → Option Int
  | [] => some 0
  | e :: rest =>
    if e = 'e' ∨ e = 'E' then
      let (negative, digits) := splitSign rest
      (Text.readDigits? digits).map fun n => if negative then -n else n
    else none

/-- Digits, perhaps with a point before, between or behind them, and perhaps an exponent. -/
def readUnsigned? (text : List Char) : Option Decimal :=
  let whole := text.takeWhile Char.isDigit
  let behindWhole := text.dropWhile Char.isDigit
  let (part, behind) :=
    match behindWhole with
    | '.' :: rest => (rest.takeWhile Char.isDigit, rest.dropWhile Char.isDigit)
    | _ => ([], behindWhole)
  if whole ++ part = [] then none
  else (readExponent? behind).map fun exponent =>
    ⟨Nat.ofDigitChars 10 (whole ++ part) 0, exponent - part.length⟩

/-- A decimal, or infinity or a non-number by name, in any case. -/
def readMagnitude? (text : List Char) : Option Float :=
  match readUnsigned? text with
  | some d => some d.toFloat
  | none =>
    let name := text.map Char.toLower
    if name = "inf".toList ∨ name = "infinity".toList then some (1 / 0)
    else if name = "nan".toList then some (0 / 0)
    else none

def readFloat? (text : List Char) : Option Float :=
  let (negative, magnitude) := splitSign text
  (readMagnitude? magnitude).map fun x => if negative then -x else x

end Bindlang.Decimal
