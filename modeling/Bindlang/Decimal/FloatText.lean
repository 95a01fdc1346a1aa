import Bindlang.Decimal.Shortest

namespace Bindlang

structure FloatFormat where
  /-- The least exponent of a leading digit that is written without an exponent. -/
  positionalFrom : Int
  /-- The least greater exponent that is written as one again. -/
  positionalBelow : Int
  plusSign : Bool
  tie : Decimal.Tie
  deriving DecidableEq, Repr

namespace FloatFormat

def expression : FloatFormat := ⟨-4, 16, false, .up⟩

def json : FloatFormat := ⟨-5, 16, true, .even⟩

def zeros (n : Nat) : List Char := List.replicate n '0'

def positional (digits : List Char) (exponent : Int) : List Char :=
  if exponent < 0 then '0' :: '.' :: (zeros (-exponent - 1).toNat ++ digits)
  else if digits.length ≤ exponent.toNat + 1 then
    digits ++ zeros (exponent.toNat + 1 - digits.length) ++ ['.', '0']
  else digits.take (exponent.toNat + 1) ++ '.' :: digits.drop (exponent.toNat + 1)

def scientific (plusSign : Bool) (digits : List Char) (exponent : Int) : List Char :=
  let sign := if exponent < 0 then ['-'] else if plusSign then ['+'] else []
  let mantissa :=
    match digits with
    | [] => []
    | [d] => [d]
    | d :: more => d :: '.' :: more
  mantissa ++ 'e' :: (sign ++ Nat.toDigits 10 exponent.natAbs)

def decimalText (f : FloatFormat) (d : Decimal) : List Char :=
  let digits := Nat.toDigits 10 d.significand
  let exponent := d.exponent + (digits.length - 1 : Nat)
  if f.positionalFrom ≤ exponent ∧ exponent < f.positionalBelow then positional digits exponent
  else scientific f.plusSign digits exponent

def signText : Float.Model.UnpackedFloat.Sign → List Char
  | .positive => []
  | .negative => ['-']

def chars (f : FloatFormat) (x : Float) : List Char :=
  match x.toModel.unpack with
  | .notANumber => "NaN".toList
  | .infinity sign => signText sign ++ "inf".toList
  | .zero sign => signText sign ++ "0.0".toList
  | .finite sign m q _ => signText sign ++ f.decimalText (Decimal.shortest f.tie x.abs m q)

def text (f : FloatFormat) (x : Float) : String :=
  .ofList (f.chars x)

end FloatFormat

end Bindlang
