import FieldScript.Arguments

/-!
# FieldScript.Library

The functions that every program finds.

`clock` tells the time and `hasField` tells whether an instance has a field.  The
second is what a program asks before it reads a field it is not sure of, since
reading an absent field aborts the program.
-/

namespace FieldScript

namespace Library

/-! ## the functions -/

/-- The seconds since the epoch. -/
def clock : Declaration where
  name := "clock"
  params := []
  result := .float
  fallback := none
  body site _ := .readClock fun
    | .seconds value => .answer (.float value)
    | .beforeEpoch =>
      .fail site (.custom <| "system clock is set before the Unix epoch: "
        ++ "second time provided was later than self")

/-- Is a field set on an instance, to whatever value?  A malformed call may count
as no. -/
def hasField : Declaration where
  name := "hasField"
  params := [⟨"instance", .inst⟩, ⟨"field", .string⟩]
  result := .bool
  fallback := some (.bool false)
  body _ args := .look fun view =>
    let ((ref, _), (field, _), _) := args
    .answer (.bool ((view.store.inst ref).hasField field))

/-! ## the library's scope -/

/-- The functions in the order in which they are bound. -/
def functions : List Function :=
  [clock.function .clock, hasField.function .hasField]

/-- Creates functions and binds each under its name. -/
def bindAll (producer : String) (library : Bindings Located) :
    List Function → Exec (Bindings Located)
  | [] => pure library
  | fn :: rest => do
    let ref ← Exec.nextFunction
    Exec.emit (.functionCreated fn)
    bindAll producer (library.insert fn.name ⟨.fn ref, .internal producer⟩) rest

/-- Puts the library together; its functions are new ones each time. -/
def build : Exec (Bindings Located) := do
  let library ← bindAll "native library" ∅ functions
  Exec.emit (.libraryBuilt library.size)
  return library

end Library

end FieldScript
