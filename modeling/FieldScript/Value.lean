import FieldScript.Syntax

/-!
# FieldScript.Value

Values of running programs.

Numbers, texts and the like are themselves values.  Classes, instances and
functions live in a store (`FieldScript.Store`) and a value only refers to them,
so that two values are the same instance exactly when they hold the same
reference.
-/

namespace FieldScript

/-! ## types -/

/-- The type of a value, as programs and messages name it. -/
inductive ValueType where
  | null | bool | int | float | string | cls | inst | fn
deriving DecidableEq

/-- The name of a type. -/
def ValueType.text : ValueType → String
  | .null => "null"
  | .bool => "bool"
  | .int => "int"
  | .float => "float"
  | .string => "string"
  | .cls => "class"
  | .inst => "instance"
  | .fn => "function"

/-! ## references -/

/-- Refers to a class in a store. -/
structure ClassRef where
  index : Nat
deriving DecidableEq

/-- Refers to an instance in a store. -/
structure InstanceRef where
  index : Nat
deriving DecidableEq

/-- Refers to a function in a store. -/
structure FunctionRef where
  index : Nat
deriving DecidableEq

/-! ## values -/

/-- A value of a running program. -/
inductive Value where
  | null
  | bool (b : Bool)
  | int (i : Int64)
  | float (x : Binary64)
  | string (s : String)
  | cls (ref : ClassRef)
  | inst (ref : InstanceRef)
  | fn (ref : FunctionRef)
deriving DecidableEq

namespace Value

instance : Inhabited Value := ⟨.null⟩

def type : Value → ValueType
  | .null => .null
  | .bool _ => .bool
  | .int _ => .int
  | .float _ => .float
  | .string _ => .string
  | .cls _ => .cls
  | .inst _ => .inst
  | .fn _ => .fn

/-- The equality that programs test: numbers compare as numbers, classes,
instances and functions by identity, and values of two types are never equal. -/
def same : Value → Value → Bool
  | .null, .null => true
  | .bool a, .bool b => a == b
  | .int a, .int b => a == b
  | .float a, .float b => a == b
  | .string a, .string b => a == b
  | .cls a, .cls b => a == b
  | .inst a, .inst b => a == b
  | .fn a, .fn b => a == b
  | _, _ => false

end Value

/-- The value that a literal stands for. -/
def Literal.value : Literal → Value
  | .null => .null
  | .bool b => .bool b
  | .int i => .int i
  | .float x => .float x
  | .string s => .string s

/-- A value together with the place it comes from. -/
structure Located where
  value : Value
  origin : Location
deriving DecidableEq

end FieldScript
