import FieldScript.Library

/-!
# FieldScript.Given

Values that come from outside a program.

A host hands values to functions and compares them.  A `Given` says how to make
such a value: classes, instances and functions are new, and a value can refer to
one made before it, so that both are the same.
-/

namespace FieldScript

/-- How to make a value. -/
inductive Given where
  | literal (value : Literal)
  | newClass (name : String) (range : Range)
  /-- An instance of a new class, with these fields set in turn. -/
  | newInstance (cls : String) (range : Range) (fields : List (String × Given))
  /-- An instance of the class made at this position. -/
  | instanceOf (position : Nat) (fields : List (String × Given))
  /-- The instance whose field this is. -/
  | self
  /-- A function of a library that is put together for the purpose. -/
  | library (name : String)
  /-- A new function that answers null. -/
  | newFunction (name : String) (params : List Param) (result : ValueType)
  /-- The value made at this position. -/
  | earlier (position : Nat)

namespace Given

/-- A new class. -/
def makeClass (name : String) (range : Range) : Exec ClassRef := do
  let ref ← Exec.nextClass
  Exec.emit (.classCreated ⟨name, range⟩)
  return ref

/-- A new instance without fields. -/
def makeInstance (cls : ClassRef) : Exec InstanceRef := do
  let ref ← Exec.nextInstance
  Exec.emit (.instanceSupplied cls)
  return ref

/-- The class made at a position; where there is none, a nameless one. -/
def classAt (made : List Value) (position : Nat) : Exec ClassRef :=
  match made[position]? with
  | some (.cls ref) => pure ref
  | _ => makeClass "" .synthetic

mutual

/-- Makes a value.  `made` are the values made before and `self` is the instance
around it. -/
def build (made : List Value) (self : Value) : Given → Exec Value
  | .literal value => pure value.value
  | .newClass name range => do return .cls (← makeClass name range)
  | .newInstance cls range fields => do
    let ref ← makeInstance (← makeClass cls range)
    setFields made ref fields
    return .inst ref
  | .instanceOf position fields => do
    let ref ← makeInstance (← classAt made position)
    setFields made ref fields
    return .inst ref
  | .self => pure self
  | .library name => do
    let library ← Library.build
    return ((library.get? name).map (·.value)).getD .null
  | .newFunction name params result => do
    let ref ← Exec.nextFunction
    Exec.emit (.functionCreated ⟨name, params, result, .inert⟩)
    return .fn ref
  | .earlier position => pure (made[position]?.getD .null)

/-- Makes the values of fields and sets them, one after the other. -/
def setFields (made : List Value) (ref : InstanceRef) : List (String × Given) → Exec Unit
  | [] => pure ()
  | (name, g) :: rest => do
    let value ← build made (.inst ref) g
    Exec.emit (.fieldSet ref name value)
    setFields made ref rest

end

/-- Makes values in order after those in `made`; later ones can refer to all before
them. -/
def buildAll (made : List Value) : List Given → Exec (List Value)
  | [] => pure made
  | g :: rest => do
    let value ← build made .null g
    buildAll (made ++ [value]) rest

end Given

end FieldScript
