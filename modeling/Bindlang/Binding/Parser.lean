import Bindlang.Binding.Error
import Bindlang.Decimal.Reader
import Bindlang.Expression
import Bindlang.Keyed

namespace Bindlang

inductive DuplicatePolicy
  | lastWins
  | reject
  deriving DecidableEq, Repr

structure Rules where
  duplicates : DuplicatePolicy
  maxDepth : Nat
  deriving DecidableEq, Repr

def Rules.default : Rules := ⟨.lastWins, 128⟩

/-- An integer, if it is written like one and fits 64 bits, or else the nearest float. -/
def Literal.ofNumber? (lexeme : String) : Option Literal :=
  let text := lexeme.toList
  let float := (Decimal.readFloat? text).map Literal.float
  if text.any fun c => c == '.' || c == 'e' || c == 'E' then float
  else ((Text.readInt64? text).map Literal.integer).or float

namespace Parser

/-- An open container around a value still to be read, with what stands before it, last first. -/
inductive Frame
  | array (items : List Expression)
  | object (entries : List (String × Expression)) (key : String)

/-- A value still to be read: in a binding, inside open containers, the innermost first. -/
structure Hole where
  name : String
  position : Position
  frames : List Frame

inductive Separator
  | binding
  | element (hole : Hole) (items : List Expression)
  | entry (hole : Hole) (entries : List (String × Expression))

/-- What may come next. Segments, elements and entries stand in reverse order. -/
inductive Awaiting
  | bindingName
  | bindingColon (name : String) (position : Position)
  | value (hole : Hole)
  | firstElement (hole : Hole)
  | firstKey (hole : Hole)
  | nextKey (hole : Hole) (entries : List (String × Expression))
  | entryColon (hole : Hole) (entries : List (String × Expression)) (key : String)
  | nameEnd (hole : Hole) (path : List Segment) (name : String)
  | callEnd (hole : Hole) (path : List Segment) (name : String)
  | pathEnd (hole : Hole) (path : List Segment)
  | memberName (hole : Hole) (path : List Segment)
  | separator (separator : Separator)

structure State where
  bindings : List Binding
  awaiting : Awaiting

def start : State := ⟨[], .bindingName⟩

def add (policy : DuplicatePolicy) (bindings : List Binding) (b : Binding) :
    Except ParseError (List Binding) :=
  if policy = .reject ∧ Keyed.contains Binding.name b.name bindings then
    .error (.duplicateName b.name b.position)
  else .ok (Keyed.put Binding.name b bindings)

def fill (policy : DuplicatePolicy) (bindings : List Binding) (hole : Hole) (value : Expression) :
    Except ParseError (List Binding × Separator) :=
  match hole.frames with
  | [] => (add policy bindings ⟨hole.name, value, hole.position⟩).map (·, .binding)
  | .array items :: frames =>
    .ok (bindings, .element ⟨hole.name, hole.position, frames⟩ (value :: items))
  | .object entries key :: frames =>
    .ok (bindings, .entry ⟨hole.name, hole.position, frames⟩ ((key, value) :: entries))

def complete (policy : DuplicatePolicy) (bindings : List Binding) (hole : Hole) (value : Expression) :
    Except ParseError State :=
  (fill policy bindings hole value).map fun (bindings, separator) => ⟨bindings, .separator separator⟩

def Hole.inArray (hole : Hole) (items : List Expression) : Hole :=
  ⟨hole.name, hole.position, .array items :: hole.frames⟩

def Hole.inObject (hole : Hole) (entries : List (String × Expression)) (key : String) : Hole :=
  ⟨hole.name, hole.position, .object entries key :: hole.frames⟩

def openContainer (limit : Nat) (hole : Hole) (mark : Token) (next : State) :
    Except ParseError State :=
  if limit ≤ hole.frames.length then .error (.nestingTooDeep limit mark.position) else .ok next

def beginValue (rules : Rules) (bindings : List Binding) (hole : Hole) (t : Token) :
    Except ParseError State :=
  let literal (l : Literal) := complete rules.duplicates bindings hole (.literal l)
  match t.kind with
  | .string => literal (.string t.lexeme)
  | .number =>
    match Literal.ofNumber? t.lexeme with
    | some l => literal l
    | none => .error (.unexpectedToken .number t)
  | .boolean => literal (.boolean (t.lexeme == "true"))
  | .null => literal .null
  | .undefined => literal .undefined
  | .leftBracket => openContainer rules.maxDepth hole t ⟨bindings, .firstElement hole⟩
  | .leftBrace => openContainer rules.maxDepth hole t ⟨bindings, .firstKey hole⟩
  | .identifier => .ok ⟨bindings, .nameEnd hole [] t.lexeme⟩
  | _ => .error (.unexpectedToken .value t)

def beginEntry (bindings : List Binding) (hole : Hole) (entries : List (String × Expression))
    (t : Token) : Except ParseError State :=
  if t.kind = .string ∨ t.kind = .identifier then
    .ok ⟨bindings, .entryColon hole entries t.lexeme⟩
  else .error (.unexpectedToken .objectKey t)

def separate (policy : DuplicatePolicy) (bindings : List Binding) (t : Token) :
    Separator → Except ParseError State
  | .binding =>
    if t.kind = .comma then .ok ⟨bindings, .bindingName⟩
    else .error (.unexpectedToken .bindingEnd t)
  | .element hole items =>
    if t.kind = .comma then .ok ⟨bindings, .value (hole.inArray items)⟩
    else if t.kind = .rightBracket then complete policy bindings hole (.array items.reverse)
    else .error (.unexpectedToken .elementEnd t)
  | .entry hole entries =>
    if t.kind = .comma then .ok ⟨bindings, .nextKey hole entries⟩
    else if t.kind = .rightBrace then complete policy bindings hole (.object entries.reverse)
    else .error (.unexpectedToken .entryEnd t)

def leavePath (policy : DuplicatePolicy) (bindings : List Binding) (hole : Hole)
    (path : List Segment) (t : Token) : Except ParseError State := do
  let (bindings, separator) ← fill policy bindings hole (.path path.reverse)
  separate policy bindings t separator

def step (rules : Rules) (s : State) (t : Token) : Except ParseError State :=
  let take (kind : TokenKind) (expected : Expected) (next : Awaiting) : Except ParseError State :=
    if t.kind = kind then .ok ⟨s.bindings, next⟩ else .error (.unexpectedToken expected t)
  match s.awaiting with
  | .bindingName => take .identifier .bindingName (.bindingColon t.lexeme t.position)
  | .bindingColon name position => take .colon .colon (.value ⟨name, position, []⟩)
  | .value hole => beginValue rules s.bindings hole t
  | .firstElement hole =>
    if t.kind = .rightBracket then complete rules.duplicates s.bindings hole (.array [])
    else beginValue rules s.bindings (hole.inArray []) t
  | .firstKey hole =>
    if t.kind = .rightBrace then complete rules.duplicates s.bindings hole (.object [])
    else beginEntry s.bindings hole [] t
  | .nextKey hole entries => beginEntry s.bindings hole entries t
  | .entryColon hole entries key => take .colon .colon (.value (hole.inObject entries key))
  | .nameEnd hole path name =>
    if t.kind = .leftParen then .ok ⟨s.bindings, .callEnd hole path name⟩
    else if t.kind = .dot then .ok ⟨s.bindings, .memberName hole (⟨name, false⟩ :: path)⟩
    else leavePath rules.duplicates s.bindings hole (⟨name, false⟩ :: path) t
  | .callEnd hole path name => take .rightParen .callEnd (.pathEnd hole (⟨name, true⟩ :: path))
  | .pathEnd hole path =>
    if t.kind = .dot then .ok ⟨s.bindings, .memberName hole path⟩
    else leavePath rules.duplicates s.bindings hole path t
  | .memberName hole path => take .identifier .memberName (.nameEnd hole path t.lexeme)
  | .separator separator => separate rules.duplicates s.bindings t separator

def endBehind (bindings : List Binding) : Separator → Except ParseError (List Binding)
  | .binding => .ok bindings
  | .element _ _ => .error (.unexpectedEnd .elementEnd)
  | .entry _ _ => .error (.unexpectedEnd .entryEnd)

def endPath (policy : DuplicatePolicy) (bindings : List Binding) (hole : Hole)
    (path : List Segment) : Except ParseError (List Binding) := do
  let (bindings, separator) ← fill policy bindings hole (.path path.reverse)
  endBehind bindings separator

def finish (policy : DuplicatePolicy) (s : State) : Except ParseError (List Binding) :=
  match s.awaiting with
  | .bindingName => .error (.unexpectedEnd .bindingName)
  | .bindingColon _ _ => .error (.unexpectedEnd .colon)
  | .value _ => .error (.unexpectedEnd .value)
  | .firstElement _ => .error (.unexpectedEnd .value)
  | .firstKey _ => .error (.unexpectedEnd .objectKey)
  | .nextKey _ _ => .error (.unexpectedEnd .objectKey)
  | .entryColon _ _ _ => .error (.unexpectedEnd .colon)
  | .nameEnd hole path name => endPath policy s.bindings hole (⟨name, false⟩ :: path)
  | .callEnd _ _ _ => .error (.unexpectedEnd .callEnd)
  | .pathEnd hole path => endPath policy s.bindings hole path
  | .memberName _ _ => .error (.unexpectedEnd .memberName)
  | .separator separator => endBehind s.bindings separator

def run (rules : Rules) (s : State) (tokens : List Token) : Except ParseError State :=
  tokens.foldlM (step rules) s

theorem run_append (rules : Rules) (s : State) (ts us : List Token) :
    run rules s (ts ++ us) = run rules s ts >>= fun s => run rules s us := by
  simp [run, List.foldlM_append]

end Parser

def parse (rules : Rules) (tokens : List Token) : Except ParseError (List Binding) :=
  if tokens = [] then .ok []
  else Parser.run rules Parser.start tokens >>= Parser.finish rules.duplicates

end Bindlang
