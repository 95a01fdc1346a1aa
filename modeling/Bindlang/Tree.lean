import Bindlang.Expression
import Bindlang.Json
import Bindlang.Value

namespace Bindlang

inductive Tree
  | undefined
  | null
  | boolean (b : Bool)
  | integer (n : Int64)
  | float (x : Float)
  | string (s : String)
  | array (items : List Tree)
  | object (fields : List (String × Tree))
  | function (ref : FunctionRef)

namespace Tree

mutual

def chars : Tree → List Char
  | undefined => "undefined".toList
  | null => "null".toList
  | boolean b => booleanText b
  | integer n => Text.writeInteger n.toInt
  | float x => FloatFormat.expression.chars x
  | string s => quoted s
  | array items => '[' :: (separated (itemTexts items) ++ [']'])
  | object fields => '{' :: (separated (fieldTexts fields) ++ ['}'])
  | function _ => "[function]".toList

def itemTexts : List Tree → List (List Char)
  | [] => []
  | item :: items => item.chars :: itemTexts items

def fieldTexts : List (String × Tree) → List (List Char)
  | [] => []
  | (key, value) :: fields => (quoted key ++ ':' :: ' ' :: value.chars) :: fieldTexts fields

end

def text (t : Tree) : String :=
  .ofList t.chars

mutual

/-- Floats are compared as numbers, functions as themselves, objects in any order of fields. -/
def equal : Tree → Tree → Bool
  | undefined, undefined => true
  | null, null => true
  | boolean a, boolean b => a == b
  | integer a, integer b => a == b
  | float a, float b => a == b
  | string a, string b => a == b
  | array as, array bs => equalItems as bs
  | object as, object bs => as.length == bs.length && containsFields as bs
  | function a, function b => a == b
  | _, _ => false

def equalItems : List Tree → List Tree → Bool
  | [], [] => true
  | a :: as, b :: bs => a.equal b && equalItems as bs
  | _, _ => false

def containsFields : List (String × Tree) → List (String × Tree) → Bool
  | [], _ => true
  | (key, a) :: as, bs =>
    (match Keyed.find? Prod.fst key bs with
      | some (_, b) => a.equal b
      | none => false) && containsFields as bs

end

mutual

def toJson : Tree → Json
  | undefined => .null
  | null => .null
  | boolean b => .boolean b
  | integer n => .integer n.toInt
  | float x => .ofFloat x
  | string s => .string s
  | array items => .array (itemsToJson items)
  | object fields => .object (Json.sortFields (fieldsToJson fields))
  | function _ => .null

def itemsToJson : List Tree → List Json
  | [] => []
  | item :: items => item.toJson :: itemsToJson items

def fieldsToJson : List (String × Tree) → List (String × Json)
  | [] => []
  | (key, value) :: fields => (key, value.toJson) :: fieldsToJson fields

end

/-- An integer that does not fit 64 bits is a float. -/
def ofInteger (n : Int) : Tree :=
  match Text.toInt64? n with
  | some i => integer i
  | none =>
    let magnitude := (Decimal.mk n.natAbs 0).toFloat
    float (if n < 0 then -magnitude else magnitude)

mutual

def ofJson : Json → Tree
  | .null => null
  | .boolean b => boolean b
  | .integer n => ofInteger n
  | .float x => float x
  | .string s => string s
  | .array items => array (itemsOfJson items)
  | .object fields => object (fieldsOfJson fields)

def itemsOfJson : List Json → List Tree
  | [] => []
  | item :: items => ofJson item :: itemsOfJson items

def fieldsOfJson : List (String × Json) → List (String × Tree)
  | [] => []
  | (key, value) :: fields => (key, ofJson value) :: fieldsOfJson fields

end

end Tree

end Bindlang
