import FieldScript.Action

/-!
# FieldScript.Arguments

The argument handling that native functions share.

A function is declared with the names and types of its parameters.  Its body gets
the arguments only when their number and types are right, each as a plain value of
its type together with the place it comes from.  The number is checked first, then
the types from left to right.
-/

namespace FieldScript

/-! ## typed values -/

/-- What a value of some type carries. -/
def ValueType.Carrier : ValueType → Type
  | .null => Unit
  | .bool => Bool
  | .int => Int64
  | .float => Binary64
  | .string => String
  | .cls => ClassRef
  | .inst => InstanceRef
  | .fn => FunctionRef

/-- What a value carries, if it is of that type. -/
def Value.as? : (type : ValueType) → Value → Option type.Carrier
  | .null, .null => some ()
  | .bool, .bool b => some b
  | .int, .int i => some i
  | .float, .float x => some x
  | .string, .string s => some s
  | .cls, .cls ref => some ref
  | .inst, .inst ref => some ref
  | .fn, .fn ref => some ref
  | _, _ => none

/-- The value that carries this. -/
def Value.ofCarrier : (type : ValueType) → type.Carrier → Value
  | .null, _ => .null
  | .bool, b => .bool b
  | .int, i => .int i
  | .float, x => .float x
  | .string, s => .string s
  | .cls, ref => .cls ref
  | .inst, ref => .inst ref
  | .fn, ref => .fn ref

/-- A value carries exactly what it was made of. -/
theorem Value.as?_ofCarrier (type : ValueType) (carried : type.Carrier) :
    (Value.ofCarrier type carried).as? type = some carried := by
  cases type <;> rfl

theorem Value.ofCarrier_of_as? {type : ValueType} {value : Value} {carried : type.Carrier}
    (h : value.as? type = some carried) : ofCarrier type carried = value := by
  cases type <;> cases value <;> cases h <;> rfl

/-- A value has exactly one type. -/
theorem Value.as?_isSome_iff (type : ValueType) (value : Value) :
    (value.as? type).isSome = true ↔ value.type = type := by
  cases type <;> cases value <;> simp [Value.as?, Value.type, Option.isSome]

/-! ## argument lists -/

/-- Arguments of the given types, each with the place it comes from. -/
def Args : List ValueType → Type
  | [] => Unit
  | type :: rest => (type.Carrier × Location) × Args rest

/-- One argument; positions count from one. -/
def parseArg (fn : String) (position : Nat) (type : ValueType) (value : Value) :
    Except ArgumentError type.Carrier :=
  match value.as? type with
  | some carried => .ok carried
  | none => .error (.wrongType fn position type value.type)

/-- Arguments in order, the first of them at `position`.  Where one list is longer
than the other, the rest does not count: the number is checked before. -/
def parseTypes (fn : String) (position : Nat) :
    (types : List ValueType) → List Located → Except ArgumentError (Args types)
  | [], _ => .ok ()
  | type :: rest, [] => .error (.wrongArity fn (type :: rest).length 0)
  | type :: rest, arg :: args => do
    let carried ← parseArg fn position type arg.value
    let others ← parseTypes fn (position + 1) rest args
    return ((carried, arg.origin), others)

/-- All arguments of a call: their number first, then their types in order. -/
def parseArgs (fn : String) (types : List ValueType) (args : List Located) :
    Except ArgumentError (Args types) :=
  if args.length = types.length then parseTypes fn 1 types args
  else .error (.wrongArity fn types.length args.length)

/-! ## declarations -/

/-- A native function with the shared argument handling. -/
structure Declaration where
  name : String
  params : List Param
  result : ValueType
  /-- What a malformed call may answer instead of failing. -/
  fallback : Option Value
  /-- What a call with suitable arguments does, given where it is made. -/
  body : Location → Args (params.map (·.type)) → Action

/-- What a call does: arguments that do not suit are reported, and the body runs on
all others. -/
def Declaration.routine (d : Declaration) : Routine := fun call =>
  match parseArgs d.name (d.params.map (·.type)) call.args with
  | .ok args => d.body call.site args
  | .error e => .malformed call.site e d.fallback

/-- The function as the language sees it. -/
def Declaration.function (d : Declaration) (behaviour : Behaviour) : Function :=
  ⟨d.name, d.params, d.result, behaviour⟩

end FieldScript
