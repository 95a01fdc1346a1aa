import Bindlang.Decimal.FloatText
import Bindlang.Json
import Bindlang.Text.Integer

namespace Bindlang.Json

def hexDigits (n : Nat) : List Char :=
  [Nat.digitChar (n / 16), Nat.digitChar (n % 16)]

def escaped (c : Char) : List Char :=
  if c = '"' then ['\\', '"']
  else if c = '\\' then ['\\', '\\']
  else if c = '\x08' then ['\\', 'b']
  else if c = '\x0c' then ['\\', 'f']
  else if c = '\n' then ['\\', 'n']
  else if c = '\r' then ['\\', 'r']
  else if c = '\t' then ['\\', 't']
  else if c.toNat < 0x20 then '\\' :: 'u' :: '0' :: '0' :: hexDigits c.toNat
  else [c]

def quote (s : String) : List Char :=
  '"' :: (s.toList.flatMap escaped ++ ['"'])

def indentation (depth : Nat) : List Char :=
  List.replicate (2 * depth) ' '

def block (openMark closeMark : Char) (depth : Nat) (parts : List (List Char)) : List Char :=
  if parts = [] then [openMark, closeMark]
  else
    let newline := '\n' :: indentation (depth + 1)
    openMark :: (newline ++ (',' :: newline).intercalate parts ++ '\n' :: indentation depth ++
      [closeMark])

mutual

def charsAt (depth : Nat) : Json → List Char
  | null => "null".toList
  | boolean b => if b then "true".toList else "false".toList
  | integer n => Text.writeInteger n
  | float x => if x.isFinite then FloatFormat.json.chars x else "null".toList
  | string s => quote s
  | array items => block '[' ']' depth (itemTexts (depth + 1) items)
  | object fields => block '{' '}' depth (fieldTexts (depth + 1) fields)

def itemTexts (depth : Nat) : List Json → List (List Char)
  | [] => []
  | item :: items => charsAt depth item :: itemTexts depth items

def fieldTexts (depth : Nat) : List (String × Json) → List (List Char)
  | [] => []
  | (key, value) :: fields =>
    (quote key ++ ':' :: ' ' :: charsAt depth value) :: fieldTexts depth fields

end

def text (json : Json) : String :=
  .ofList (json.charsAt 0)

end Bindlang.Json
