import Bindlang.Token

namespace Bindlang

inductive Expected
  | bindingName
  | colon
  | value
  | number
  | objectKey
  | memberName
  | callEnd
  | elementEnd
  | entryEnd
  | bindingEnd
  deriving DecidableEq, Repr

def Expected.text : Expected → String
  | bindingName => "binding name"
  | colon => "':'"
  | value => "value"
  | number => "number"
  | objectKey => "object key"
  | memberName => "member name"
  | callEnd => "')' (calls take no arguments)"
  | elementEnd => "',' or ']'"
  | entryEnd => "',' or '\x7d'"
  | bindingEnd => "',' or end of input"

inductive ParseError
  | unexpectedToken (expected : Expected) (found : Token)
  | unexpectedEnd (expected : Expected)
  | duplicateName (name : String) (position : Position)
  | nestingTooDeep (limit : Nat) (position : Position)
  deriving DecidableEq, Repr

namespace ParseError

def position? : ParseError → Option Position
  | unexpectedToken _ found => some found.position
  | unexpectedEnd _ => none
  | duplicateName _ p | nestingTooDeep _ p => some p

def message : ParseError → String
  | unexpectedToken expected found =>
    "Unexpected token at " ++ found.position.text ++ ": expected " ++ expected.text ++ ", found " ++
      found.text
  | unexpectedEnd expected => "Unexpected end of input: expected " ++ expected.text
  | duplicateName name p => "Duplicate binding name '" ++ name ++ "' at " ++ p.text
  | nestingTooDeep limit p => "Nesting deeper than " ++ toString limit ++ " levels at " ++ p.text

end ParseError

end Bindlang
