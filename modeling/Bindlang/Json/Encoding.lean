import Bindlang.Expression
import Bindlang.Json
import Bindlang.Token

namespace Bindlang

def Position.toJson (p : Position) : Json :=
  .object [("line", .integer p.line), ("column", .integer p.column), ("offset", .integer p.offset)]

def Token.toJson (t : Token) : Json :=
  .object [("kind", .string t.kind.name), ("lexeme", .string t.lexeme), ("span", t.position.toJson)]

def Segment.toJson (s : Segment) : Json :=
  .object [("name", .string s.name), ("invoked", .boolean s.invoked)]

def Literal.toJson : Literal → Json
  | string s => .object [("type", .string "string"), ("value", .string s)]
  | integer n => .object [("type", .string "integer"), ("value", .integer n.toInt)]
  | float x => .object [("type", .string "float"), ("value", .ofFloat x)]
  | boolean b => .object [("type", .string "boolean"), ("value", .boolean b)]
  | null => .object [("type", .string "null")]
  | undefined => .object [("type", .string "undefined")]

namespace Expression

def kindToJson (kind : String) (value : Json) : Json :=
  .object [("kind", .string kind), ("value", value)]

mutual

def toJson : Expression → Json
  | literal l => kindToJson "literal" l.toJson
  | array items => kindToJson "array" (.array (itemsToJson items))
  | object entries => kindToJson "object" (.array (entriesToJson entries))
  | path p => kindToJson "path" (.array (p.map Segment.toJson))

def itemsToJson : List Expression → List Json
  | [] => []
  | item :: items => item.toJson :: itemsToJson items

def entriesToJson : List (String × Expression) → List Json
  | [] => []
  | (key, value) :: entries =>
    .object [("key", .string key), ("value", value.toJson)] :: entriesToJson entries

end

end Expression

def Binding.toJson (b : Binding) : Json :=
  .object [("name", .string b.name), ("value", b.value.toJson), ("span", b.position.toJson)]

end Bindlang
