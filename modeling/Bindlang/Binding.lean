import Bindlang.Binding.Parser
import Bindlang.Token.Lexer

namespace Bindlang

inductive SyntaxError
  | lexical (cause : LexError)
  | grammatical (cause : ParseError)
  deriving DecidableEq, Repr

namespace SyntaxError

def position? : SyntaxError → Option Position
  | lexical cause => some cause.position
  | grammatical cause => cause.position?

def message : SyntaxError → String
  | lexical cause => "Lex error: " ++ cause.message
  | grammatical cause => "Parse error: " ++ cause.message

end SyntaxError

def readBindings (rules : Rules) (text : String) : Except SyntaxError (List Binding) := do
  let tokens ← (Token.scan text).mapError .lexical
  (parse rules tokens).mapError .grammatical

theorem readBindings_of_scan (rules : Rules) {text : String} {tokens : List Token}
    (scanned : Token.scan text = .ok tokens) :
    readBindings rules text = (parse rules tokens).mapError .grammatical := by
  rw [readBindings, scanned]
  rfl

theorem exists_tokens_of_readBindings {rules : Rules} {text : String} {bindings : List Binding}
    (accepted : readBindings rules text = .ok bindings) :
    ∃ tokens, Token.scan text = .ok tokens ∧ parse rules tokens = .ok bindings := by
  cases scanned : Token.scan text with
  | error e =>
    rw [readBindings, scanned] at accepted
    cases accepted
  | ok tokens =>
    rw [readBindings_of_scan rules scanned] at accepted
    cases parsed : parse rules tokens with
    | error e =>
      rw [parsed] at accepted
      cases accepted
    | ok read =>
      rw [parsed] at accepted
      cases accepted
      exact ⟨tokens, rfl, parsed⟩

end Bindlang
