import Bindlang.Keyed

namespace Bindlang

inductive Json
  | null
  | boolean (b : Bool)
  | integer (n : Int)
  | float (x : Float)
  | string (s : String)
  | array (items : List Json)
  | object (fields : List (String × Json))

namespace Json

def ofFloat (x : Float) : Json :=
  if x.isFinite then float x else null

def insertField {α : Type} (field : String × α) : List (String × α) → List (String × α)
  | [] => [field]
  | other :: others =>
    if field.1 < other.1 then field :: other :: others
    else if field.1 = other.1 then field :: others
    else other :: insertField field others

/-- Fields sorted by key, the last of repeated ones kept. -/
def sortFields {α : Type} (fields : List (String × α)) : List (String × α) :=
  fields.foldl (fun sorted field => insertField field sorted) []

mutual

def canonical : Json → Json
  | array items => array (canonicalItems items)
  | object fields => object (sortFields (canonicalFields fields))
  | scalar => scalar

def canonicalItems : List Json → List Json
  | [] => []
  | item :: items => item.canonical :: canonicalItems items

def canonicalFields : List (String × Json) → List (String × Json)
  | [] => []
  | (key, value) :: fields => (key, value.canonical) :: canonicalFields fields

end

end Json

end Bindlang
