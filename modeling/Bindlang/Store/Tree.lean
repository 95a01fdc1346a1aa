import Bindlang.Store
import Bindlang.Tree

namespace Bindlang.Store

def treeWithin? (s : Store) : (depth : Nat) → Value → Option Tree
  | _, .undefined => some .undefined
  | _, .null => some .null
  | _, .boolean b => some (.boolean b)
  | _, .integer n => some (.integer n)
  | _, .float x => some (.float x)
  | _, .string t => some (.string t)
  | _, .function ref => some (.function ref)
  | 0, .array _ => none
  | 0, .object _ => none
  | depth + 1, .array ref => ((s.items ref).mapM (s.treeWithin? depth)).map .array
  | depth + 1, .object ref =>
    ((s.fields ref).entries.mapM fun field => (s.treeWithin? depth field.2).map (field.1, ·)).map .object

/-- A value that contains itself has none; others nest no deeper than there are containers. -/
def tree? (s : Store) (v : Value) : Option Tree :=
  s.treeWithin? (s.arrays.size + s.objects.size) v

def tree (s : Store) (v : Value) : Tree :=
  (s.tree? v).getD .undefined

/-- A value that contains itself equals none. -/
def equal (s : Store) (v w : Value) : Bool :=
  match s.tree? v, s.tree? w with
  | some t, some u => t.equal u
  | _, _ => false

mutual

def build : Tree → StateM Store Value
  | .undefined => return .undefined
  | .null => return .null
  | .boolean b => return .boolean b
  | .integer n => return .integer n
  | .float x => return .float x
  | .string s => return .string s
  | .function ref => return .function ref
  | .array items => do newArray (← buildItems items)
  | .object fields => do newObject (.ofList (← buildFields fields))

def buildItems : List Tree → StateM Store (List Value)
  | [] => return []
  | item :: items => do return (← build item) :: (← buildItems items)

def buildFields : List (String × Tree) → StateM Store (List (String × Value))
  | [] => return []
  | (key, value) :: fields => do return (key, ← build value) :: (← buildFields fields)

end

def buildJson (json : Json) : StateM Store Value :=
  build (.ofJson json.canonical)

end Bindlang.Store
