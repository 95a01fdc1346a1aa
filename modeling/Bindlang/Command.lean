import Bindlang.BindingSet
import Bindlang.Command.Arguments
import Bindlang.Command.Files
import Bindlang.Command.Style
import Bindlang.Json.Encoding
import Bindlang.Json.Printer
import Bindlang.Store.Tree

namespace Bindlang.Command

inductive Failure
  | binding (cause : SyntaxError)
  | options (cause : OptionsError)
  | unreadable (path : String) (cause : FileError)
  | malformedData
  deriving DecidableEq, Repr

namespace Failure

def code : Failure → Nat
  | binding _ => 1
  | options _ | unreadable _ _ | malformedData => 2

/-- What the decoder says of malformed data is not told: `...` stands for it. -/
def message : Failure → String
  | binding cause => cause.message
  | options cause => cause.message
  | unreadable path cause => "cannot read " ++ path ++ ": " ++ cause.message
  | malformedData => "invalid JSON data: ..."

end Failure

structure Outcome where
  code : Nat
  stdout : String
  stderr : String
  deriving DecidableEq, Repr

structure Report where
  code : Nat
  stdout : String
  deriving DecidableEq, Repr

def line (text : String) : String := text ++ "\n"

def lines (texts : List String) : String := String.join (texts.map line)

def jsonLine (json : Json) : String := line json.canonical.text

def success (stdout : String) : Report := ⟨0, stdout⟩

def absentText (style : Style) : String := style.dimmed "<absent>"

def loadOptions (files : Files) : Option String → Except Failure Options
  | none => .ok .default
  | some path =>
    match files path with
    | .error cause => .error (.unreadable path cause)
    | .ok text => (Options.read text).mapError .options

/-- The JSON in an argument, or in the file whose path follows an at sign there. -/
def loadJson (files : Files) (argument : String) : Except Failure Json := do
  let text ←
    match argument.toList with
    | '@' :: path => (files (.ofList path)).mapError (.unreadable (.ofList path))
    | _ => .ok argument
  match Json.read? text.toList with
  | some json => .ok json
  | none => .error .malformedData

def loadOptional (files : Files) : Option String → Except Failure (Option Json)
  | none => .ok none
  | some argument => some <$> loadJson files argument

def tokenLine (style : Style) (t : Token) : String :=
  style.dimmed (padLeft 6 t.position.text) ++ "  " ++ style.cyan (padRight 10 t.kind.name) ++ "  " ++
    t.lexeme

def tokens (style : Style) (text : String) (json : Bool) : Except Failure Report := do
  let tokens ← (Token.scan text).mapError fun cause => Failure.binding (.lexical cause)
  if json then return success (jsonLine (.array (tokens.map Token.toJson)))
  else return success (lines (tokens.map (tokenLine style)))

def ast (options : Options) (text : String) : Except Failure Report := do
  let bindings ← (options.bindings text).mapError .binding
  return success (jsonLine (.array (bindings.map Binding.toJson)))

def validJson (bindings : List Binding) : Json :=
  .object [("valid", .boolean true),
    ("bindings", .array (bindings.map fun b => .string b.name))]

def invalidJson (cause : SyntaxError) : Json :=
  .object [("valid", .boolean false), ("error", .string cause.message)]

def validLine (style : Style) (bindings : List Binding) : String :=
  line (style.boldGreen "valid" ++ " " ++ toString bindings.length ++ " binding(s): " ++
    ", ".intercalate (bindings.map Binding.name))

/-- JSON output tells of a wrong binding string itself. -/
def check (style : Style) (options : Options) (text : String) (json quiet : Bool) :
    Except Failure Report :=
  match options.bindings text, json with
  | .ok bindings, true => .ok (success (jsonLine (validJson bindings)))
  | .error cause, true => .ok ⟨1, jsonLine (invalidJson cause)⟩
  | .ok bindings, false => .ok (success (if quiet then "" else validLine style bindings))
  | .error cause, false => .error (.binding cause)

def evaluationJson (s : Store) (rows : List (String × Option Value)) : Json :=
  let present := rows.filterMap fun (name, v) => v.map fun v => (name, (s.tree v).toJson)
  let absent := rows.filterMap fun (name, v) => if v.isNone then some (Json.string name) else none
  .object [("values", .object present), ("absent", .array absent)]

def evaluationLine (style : Style) (s : Store) (row : String × Option Value) : String :=
  style.bold row.1 ++ " = " ++
    match row.2 with
    | some v => (s.tree v).text
    | none => absentText style

def buildScope (data context : Option Json) : StateM Store Scope := do
  let primary ← Store.buildJson (data.getD (.object []))
  let extra ←
    match context with
    | some json => some <$> Store.buildJson json
    | none => pure none
  return ⟨primary, extra⟩

def eval (style : Style) (files : Files) (options : Options) (text : String)
    (data context : Option String) (json : Bool) : Except Failure Report := do
  let data ← loadOptional files data
  let context ← loadOptional files context
  let (scope, store) := (buildScope data context).run .empty
  let set ← (options.bind text scope).mapError .binding
  let (rows, store) := set.evaluate.run store
  if json then return success (jsonLine (evaluationJson store rows))
  else return success (lines (rows.map (evaluationLine style store)))

def pluckJson (path : String) (found : Option Tree) : Json :=
  .object [("path", .string path), ("absent", .boolean found.isNone),
    ("value", (found.map Tree.toJson).getD .null)]

def pluck (style : Style) (files : Files) (path : String) (data : Option String) (json : Bool) :
    Except Failure Report := do
  let data ← loadOptional files data
  let (scope, store) := (buildScope data none).run .empty
  let (found, store) := (Accessor.ofPath path scope.primary).read?.run store
  let tree := found.map store.tree
  if json then return success (jsonLine (pluckJson path tree))
  else return success (line ((tree.map Tree.text).getD (absentText style)))

def versionText : String := "sbind 0.1.0"

/-- Options are loaded first, for every action. -/
def perform (style : Style) (files : Files) (invocation : Invocation) : Except Failure Report := do
  let options ← loadOptions files invocation.config
  match invocation.action with
  | .tokens text json => tokens style text json
  | .ast text => ast options text
  | .check text json quiet => check style options text json quiet
  | .eval text data context json => eval style files options text data context json
  | .pluck path data json => pluck style files path data json
  | .version => return success (line (versionText ++ " (sbind-core 0.1.0)"))

def run (style : Style) (files : Files) (invocation : Invocation) : Outcome :=
  match perform style files invocation with
  | .ok report => ⟨report.code, report.stdout, ""⟩
  | .error failure =>
    ⟨failure.code, "", line (style.boldRed "error:" ++ " " ++ failure.message)⟩

/-- A short form of the usage, which stands for all that help and usage errors print. -/
def usageText : String :=
  "Usage: sbind [--config FILE] [-q] [-v] [--no-color] tokens|ast|check|eval|pluck|version ..."

def paths (invocation : Invocation) : List String :=
  let reference (argument : Option String) : List String :=
    match argument.map String.toList with
    | some ('@' :: path) => [.ofList path]
    | _ => []
  invocation.config.toList ++
    match invocation.action with
    | .eval _ data context _ => reference data ++ reference context
    | .pluck _ data _ => reference data
    | _ => []

def outcome (colored : Bool) (files : Files) (arguments : List String) : Outcome :=
  match Invocation.read arguments with
  | .ok invocation => run ⟨colored && !invocation.noColor⟩ files invocation
  | .error .version => ⟨0, line versionText, ""⟩
  | .error .help => ⟨0, line usageText, ""⟩
  | .error .usage => ⟨2, "", line usageText⟩

end Bindlang.Command
