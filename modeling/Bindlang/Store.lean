import Bindlang.Fields
import Bindlang.Text.Integer
import Bindlang.Value

namespace Bindlang

/-- A host function takes no arguments. -/
inductive HostFunction
  /-- Returns one integer after the other, around at the end of 64 bits. -/
  | counter (next : Int64)
  /-- Pushes an item and sets a key, each only if asked to, and returns a value. -/
  | reply (value : Value) (pushed : Option (Value × Value)) (set : Option (Value × String × Value))
  deriving DecidableEq

structure Store where
  arrays : Array (List Value)
  objects : Array (Fields Value)
  functions : Array HostFunction
  deriving DecidableEq

namespace Store

def empty : Store := ⟨#[], #[], #[]⟩

def items (s : Store) (ref : ArrayRef) : List Value :=
  s.arrays[ref.index]?.getD []

def fields (s : Store) (ref : ObjectRef) : Fields Value :=
  s.objects[ref.index]?.getD .empty

/-- Objects have fields, arrays have items under decimal indices, and nothing else has members. -/
def member? (s : Store) (v : Value) (key : String) : Option Value :=
  match v with
  | .object ref => (s.fields ref).find? key
  | .array ref => (Text.readNatural? key.toList).bind fun i => (s.items ref)[i]?
  | _ => none

def hasMember (s : Store) (v : Value) (key : String) : Bool :=
  match v with
  | .object ref => (s.fields ref).contains key
  | .array ref => (Text.readNatural? key.toList).any (· < (s.items ref).length)
  | _ => false

def setField (s : Store) (v : Value) (key : String) (new : Value) : Store :=
  match v with
  | .object ref =>
    { s with objects := s.objects.modify ref.index (Fields.put key new) }
  | _ => s

def pushItem (s : Store) (v : Value) (new : Value) : Store :=
  match v with
  | .array ref => { s with arrays := s.arrays.modify ref.index (· ++ [new]) }
  | _ => s

def set (v : Value) (key : String) (new : Value) : StateM Store (Option Value) := do
  let before ← get
  StateT.set (before.setField v key new)
  return match v with
    | .object _ => before.member? v key
    | _ => none

def push (v : Value) (new : Value) : StateM Store Bool := do
  modify fun s => s.pushItem v new
  return match v with
    | .array _ => true
    | _ => false

def newArray (items : List Value) : StateM Store Value := fun s =>
  (.array ⟨s.arrays.size⟩, { s with arrays := s.arrays.push items })

def newObject (fields : Fields Value) : StateM Store Value := fun s =>
  (.object ⟨s.objects.size⟩, { s with objects := s.objects.push fields })

def newFunction (f : HostFunction) : StateM Store Value := fun s =>
  (.function ⟨s.functions.size⟩, { s with functions := s.functions.push f })

def invoke (s : Store) (ref : FunctionRef) : HostFunction → Value × Store
  | .counter next =>
    (.integer next,
      { s with functions := s.functions.setIfInBounds ref.index (.counter (next + 1)) })
  | .reply value pushed set =>
    let s := pushed.elim s fun (target, item) => s.pushItem target item
    let s := set.elim s fun (target, key, item) => s.setField target key item
    (value, s)

def call (v : Value) : StateM Store (Option Value) := fun s =>
  match v with
  | .function ref =>
    match s.functions[ref.index]? with
    | some f => let (result, s) := s.invoke ref f; (some result, s)
    | none => (none, s)
  | _ => (none, s)

end Store

end Bindlang
