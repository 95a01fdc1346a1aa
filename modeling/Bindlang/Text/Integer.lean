namespace Bindlang.Text

def readDigits? (text : List Char) : Option Nat :=
  if text ≠ [] ∧ text.all Char.isDigit then some (Nat.ofDigitChars 10 text 0) else none

/-- Digits behind an optional plus sign, for a number that fits 64 bits. -/
def readNatural? (text : List Char) : Option Nat :=
  let digits :=
    match text with
    | '+' :: rest => rest
    | _ => text
  (readDigits? digits).filter (· < UInt64.size)

def toInt64? (n : Int) : Option Int64 :=
  if Int64.minValue.toInt ≤ n ∧ n ≤ Int64.maxValue.toInt then some (.ofInt n) else none

def readInt64? (text : List Char) : Option Int64 :=
  match text with
  | '+' :: rest => (readDigits? rest).bind (toInt64? ·)
  | '-' :: rest => (readDigits? rest).bind fun n => toInt64? (-n)
  | _ => (readDigits? text).bind (toInt64? ·)

def writeInteger (n : Int) : List Char :=
  if n < 0 then '-' :: Nat.toDigits 10 n.natAbs else Nat.toDigits 10 n.natAbs

end Bindlang.Text
