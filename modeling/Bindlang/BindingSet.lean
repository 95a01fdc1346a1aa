import Bindlang.Accessor
import Bindlang.Options

namespace Bindlang

structure BindingSet where
  accessors : Fields Accessor

namespace BindingSet

def empty : BindingSet := ⟨.empty⟩

def names (set : BindingSet) : List String :=
  set.accessors.names

def size (set : BindingSet) : Nat :=
  set.names.length

def isEmpty (set : BindingSet) : Bool :=
  set.names.isEmpty

def get? (set : BindingSet) (name : String) : Option Accessor :=
  set.accessors.find? name

def ofBindings (bindings : List Binding) (scope : Scope) : BindingSet :=
  ⟨.ofList (bindings.map fun b => (b.name, .expression b.value scope))⟩

def evaluate (set : BindingSet) : StateM Store (List (String × Option Value)) :=
  set.accessors.entries.mapM fun (name, accessor) => do return (name, ← accessor.read?)

end BindingSet

structure Element where
  attributes : Fields String
  deriving DecidableEq

namespace Options

def bindings (options : Options) (text : String) : Except SyntaxError (List Binding) :=
  readBindings options.rules text

/-- The accessors that a binding string gives in a scope; all of them or none. -/
def bind (options : Options) (text : String) (scope : Scope) : Except SyntaxError BindingSet :=
  (options.bindings text).map fun bindings => .ofBindings bindings scope

def hasBindings (options : Options) (element : Element) : Bool :=
  (element.attributes.find? options.attributeName).isSome

def bindElement (options : Options) (element : Element) (scope : Scope) :
    Except SyntaxError BindingSet :=
  match element.attributes.find? options.attributeName with
  | some text => options.bind text scope
  | none => .ok .empty

end Options

end Bindlang
