namespace Bindlang

structure ArrayRef where
  index : Nat
  deriving DecidableEq, Repr

structure ObjectRef where
  index : Nat
  deriving DecidableEq, Repr

structure FunctionRef where
  index : Nat
  deriving DecidableEq, Repr

/-- Two handles are the same value only if they lead to the same container or function. -/
inductive Value
  | undefined
  | null
  | boolean (b : Bool)
  | integer (n : Int64)
  | float (x : Float)
  | string (s : String)
  | array (ref : ArrayRef)
  | object (ref : ObjectRef)
  | function (ref : FunctionRef)
  deriving DecidableEq

namespace Value

def isCallable : Value → Bool
  | function _ => true
  | _ => false

def typeName : Value → String
  | undefined => "Undefined"
  | null => "Null"
  | boolean _ => "Boolean"
  | integer _ => "Integer"
  | float _ => "Float"
  | string _ => "String"
  | array _ => "Array"
  | object _ => "Object"
  | function _ => "Function"

end Value

end Bindlang
