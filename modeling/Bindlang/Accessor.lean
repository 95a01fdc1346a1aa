import Bindlang.Expression
import Bindlang.Path.Walk

namespace Bindlang

/-- The extra value is asked first for a path's first name, then the primary one. -/
structure Scope where
  primary : Value
  extra : Option Value
  deriving DecidableEq

namespace Scope

def usesExtra (scope : Scope) (s : Store) (name : String) : Bool :=
  scope.extra.any fun extra => s.hasMember extra name

def root (scope : Scope) (s : Store) (name : String) : Value :=
  if scope.usesExtra s name then scope.extra.getD scope.primary else scope.primary

end Scope

def Literal.value : Literal → Value
  | string s => .string s
  | integer n => .integer n
  | float x => .float x
  | boolean b => .boolean b
  | null => .null
  | undefined => .undefined

namespace Expression

mutual

/-- The containers of literals are new at each reading. -/
def evaluate? (scope : Scope) : Expression → StateM Store (Option Value)
  | literal l => return some l.value
  | array items => do some <$> Store.newArray (← evaluateItems scope items)
  | object entries => do some <$> Store.newObject (.ofList (← evaluateEntries scope entries))
  | path [] => return none
  | path (first :: others) => do Path.walk? (first :: others) (scope.root (← get) first.name)

def evaluateItems (scope : Scope) : List Expression → StateM Store (List Value)
  | [] => return []
  | item :: items => do
    let value ← item.evaluate? scope
    return value.getD .undefined :: (← evaluateItems scope items)

def evaluateEntries (scope : Scope) : List (String × Expression) → StateM Store (List (String × Value))
  | [] => return []
  | (key, item) :: entries => do
    let value ← item.evaluate? scope
    return (key, value.getD .undefined) :: (← evaluateEntries scope entries)

end

theorem evaluate_array (scope : Scope) (items : List Expression) (s : Store) :
    (array items).evaluate? scope s =
      (some (Store.newArray (evaluateItems scope items s).1 (evaluateItems scope items s).2).1,
        (Store.newArray (evaluateItems scope items s).1 (evaluateItems scope items s).2).2) := rfl

theorem evaluate_object (scope : Scope) (entries : List (String × Expression)) (s : Store) :
    (object entries).evaluate? scope s =
      (some (Store.newObject (.ofList (evaluateEntries scope entries s).1)
          (evaluateEntries scope entries s).2).1,
        (Store.newObject (.ofList (evaluateEntries scope entries s).1)
          (evaluateEntries scope entries s).2).2) := rfl

theorem evaluateItems_cons (scope : Scope) (item : Expression) (items : List Expression) (s : Store) :
    evaluateItems scope (item :: items) s =
      ((item.evaluate? scope s).1.getD .undefined ::
          (evaluateItems scope items (item.evaluate? scope s).2).1,
        (evaluateItems scope items (item.evaluate? scope s).2).2) := rfl

theorem evaluateEntries_cons (scope : Scope) (key : String) (value : Expression)
    (entries : List (String × Expression)) (s : Store) :
    evaluateEntries scope ((key, value) :: entries) s =
      ((key, (value.evaluate? scope s).1.getD .undefined) ::
          (evaluateEntries scope entries (value.evaluate? scope s).2).1,
        (evaluateEntries scope entries (value.evaluate? scope s).2).2) := rfl

theorem evaluate_path (scope : Scope) (first : Segment) (others : Path) (s : Store) :
    (path (first :: others)).evaluate? scope s =
      Path.walk? (first :: others) (scope.root s first.name) s := rfl

end Expression

inductive Accessor
  | constant (value : Value)
  | pluck (path : Path) (root : Value)
  | expression (expression : Expression) (scope : Scope)

namespace Accessor

def read? : Accessor → StateM Store (Option Value)
  | constant value => return some value
  | pluck path root => path.walk? root
  | expression e scope => e.evaluate? scope

def value (accessor : Accessor) : StateM Store Value := do
  return (← accessor.read?).getD .undefined

def ofPath (text : String) (root : Value) : Accessor :=
  pluck (.ofText text) root

end Accessor

end Bindlang
