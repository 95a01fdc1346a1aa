import Bindlang.Position

namespace Bindlang

inductive TokenKind
  | identifier
  | string
  | number
  | boolean
  | null
  | undefined
  | comma
  | colon
  | leftBracket
  | rightBracket
  | leftBrace
  | rightBrace
  | leftParen
  | rightParen
  | dot
  deriving DecidableEq, Repr

namespace TokenKind

def text : TokenKind → String
  | identifier => "identifier"
  | string => "string"
  | number => "number"
  | boolean => "boolean"
  | null => "null"
  | undefined => "undefined"
  | comma => "','"
  | colon => "':'"
  | leftBracket => "'['"
  | rightBracket => "']'"
  | leftBrace => "'\x7b'"
  | rightBrace => "'\x7d'"
  | leftParen => "'('"
  | rightParen => "')'"
  | dot => "'.'"

def name : TokenKind → String
  | identifier => "Identifier"
  | string => "String"
  | number => "Number"
  | boolean => "Boolean"
  | null => "Null"
  | undefined => "Undefined"
  | comma => "Comma"
  | colon => "Colon"
  | leftBracket => "LBracket"
  | rightBracket => "RBracket"
  | leftBrace => "LBrace"
  | rightBrace => "RBrace"
  | leftParen => "LParen"
  | rightParen => "RParen"
  | dot => "Dot"

def ofPunctuation? : Char → Option TokenKind
  | ',' => some comma
  | ':' => some colon
  | '[' => some leftBracket
  | ']' => some rightBracket
  | '{' => some leftBrace
  | '}' => some rightBrace
  | '(' => some leftParen
  | ')' => some rightParen
  | '.' => some dot
  | _ => none

/-- A keyword has a kind of its own. -/
def ofWord (word : List Char) : TokenKind :=
  if word = "true".toList ∨ word = "false".toList then boolean
  else if word = "null".toList then null
  else if word = "undefined".toList then undefined
  else identifier

def isWord : TokenKind → Bool
  | identifier | boolean | null | undefined => true
  | _ => false

end TokenKind

/-- The lexeme of a string is the text between its quotes, that of other tokens all their text. -/
structure Token where
  kind : TokenKind
  lexeme : String
  position : Position
  deriving DecidableEq, Repr

namespace Token

def text (t : Token) : String :=
  match t.kind with
  | .string => "string \"" ++ t.lexeme ++ "\""
  | .identifier => "identifier '" ++ t.lexeme ++ "'"
  | .number => "number " ++ t.lexeme
  | _ => "'" ++ t.lexeme ++ "'"

end Token

end Bindlang
