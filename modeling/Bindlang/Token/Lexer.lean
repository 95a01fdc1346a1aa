import Bindlang.Text.Whitespace
import Bindlang.Token.Lexeme

namespace Bindlang

inductive LexError
  | unterminatedString (position : Position)
  | unexpectedCharacter (found : Char) (position : Position)
  deriving DecidableEq, Repr

namespace LexError

def position : LexError → Position
  | unterminatedString p | unexpectedCharacter _ p => p

def message : LexError → String
  | unterminatedString p => "Unterminated string starting at " ++ p.text
  | unexpectedCharacter c p => "Unexpected character '" ++ c.toString ++ "' at " ++ p.text

def ofFault (p : Position) : Lexeme.Fault → LexError
  | .unterminatedString => .unterminatedString p
  | .unexpectedCharacter skipped found => .unexpectedCharacter found (p.after skipped)

end LexError

namespace Token

def source (t : Token) : List Char :=
  Lexeme.sourceOf t.kind t.lexeme.toList

def skipBlank (p : Position) (text : List Char) : Position × List Char :=
  (p.after (text.takeWhile Text.isWhitespace), text.dropWhile Text.isWhitespace)

theorem skipBlank_length (p : Position) (text : List Char) :
    (skipBlank p text).2.length ≤ text.length :=
  (List.dropWhile_suffix _).length_le

/-- A dot counts as directly before a token also across white space. -/
def scanFrom (afterDot : Bool) (p : Position) (text : List Char) : Except LexError (List Token) :=
  match more : (skipBlank p text).2 with
  | [] => .ok []
  | c :: rest =>
    let here := (skipBlank p text).1
    match read : Lexeme.first afterDot c rest with
    | .error fault => .error (.ofFault here fault)
    | .ok l =>
      have : l.rest.length < text.length :=
        Nat.lt_of_lt_of_le (Lexeme.first_rest_length read) (more ▸ skipBlank_length p text)
      (scanFrom (l.kind == .dot) (here.after l.source) l.rest).map
        (⟨l.kind, .ofList l.chars, here⟩ :: ·)
termination_by text.length

def scan (text : String) : Except LexError (List Token) :=
  scanFrom false .start text.toList

end Token

end Bindlang
