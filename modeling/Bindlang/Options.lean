import Bindlang.Binding
import Bindlang.Json.Reader
import Bindlang.Text.Whitespace

namespace Bindlang

structure Options where
  attributeName : String
  rules : Rules
  deriving DecidableEq, Repr

inductive OptionsError
  | malformed
  | emptyAttribute
  | zeroDepth
  deriving DecidableEq, Repr

/-- What the decoder says of malformed options is not told: `...` stands for it. -/
def OptionsError.detail : OptionsError → String
  | malformed => "..."
  | emptyAttribute => "attribute must not be empty"
  | zeroDepth => "max_depth must be at least 1"

def OptionsError.message (e : OptionsError) : String :=
  "Config error: " ++ e.detail

def DuplicatePolicy.name : DuplicatePolicy → String
  | lastWins => "last_wins"
  | reject => "reject"

def DuplicatePolicy.ofName? : String → Option DuplicatePolicy
  | "last_wins" => some lastWins
  | "reject" => some reject
  | _ => none

/-- A policy is given by its name, or by an object with nothing for its name. -/
def DuplicatePolicy.ofJson? : Json → Option DuplicatePolicy
  | .string name => ofName? name
  | .object [(name, .null)] => ofName? name
  | _ => none

namespace Options

def default : Options := ⟨"data-sbind", .default⟩

structure Given where
  attributeName : Option String
  duplicates : Option DuplicatePolicy
  maxDepth : Option Nat

def Given.none : Given := ⟨.none, .none, .none⟩

def Given.addField? (given : Given) : String × Json → Option Given
  | ("attribute", value) =>
    match given.attributeName, value with
    | .none, .string s => some { given with attributeName := s }
    | _, _ => .none
  | ("duplicates", value) =>
    match given.duplicates, DuplicatePolicy.ofJson? value with
    | .none, some policy => some { given with duplicates := policy }
    | _, _ => .none
  | ("max_depth", value) =>
    match given.maxDepth, value with
    | .none, .integer (.ofNat limit) => some { given with maxDepth := limit }
    | _, _ => .none
  | _ => .none

def fieldNames : List String := ["attribute", "duplicates", "max_depth"]

def fields? : Json → Option (List (String × Json))
  | .object fields => some fields
  | .array items => if items.length ≤ fieldNames.length then some (fieldNames.zip items) else none
  | _ => none

def Given.ofJson? (json : Json) : Option Given := do
  (← fields? json).foldlM Given.addField? Given.none

def Given.complete (given : Given) : Options :=
  ⟨given.attributeName.getD default.attributeName,
    given.duplicates.getD default.rules.duplicates, given.maxDepth.getD default.rules.maxDepth⟩

def check (options : Options) : Except OptionsError Options :=
  if Text.trim options.attributeName.toList = [] then .error .emptyAttribute
  else if options.rules.maxDepth = 0 then .error .zeroDepth
  else .ok options

def read (text : String) : Except OptionsError Options :=
  match (Json.read? text.toList).bind Given.ofJson? with
  | .none => .error .malformed
  | some given => given.complete.check

end Options

end Bindlang
