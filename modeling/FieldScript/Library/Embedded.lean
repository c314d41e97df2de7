import FieldScript.Host

/-!
# FieldScript.Library.Embedded

Functions with which a host shows and exercises the language from inside.

`fail` aborts with a given message, `probe` takes one argument of every type,
`inspect` shows the current scope and the calls in progress, `script` runs a stored
program in the same context, `attempt` does so and answers the message of a failure
instead of passing it on, and `apply` calls the function it is given.
-/

namespace FieldScript

namespace Library

/-! ## reporting -/

/-- Aborts with the message it is given. -/
def fail : Declaration where
  name := "fail"
  params := [⟨"message", .string⟩]
  result := .null
  fallback := none
  body site args :=
    let ((message, _), _) := args
    .fail site (.custom message)

/-- Shows what it is given, and where each argument comes from. -/
def probe : Declaration where
  name := "probe"
  params := [⟨"n", .null⟩, ⟨"b", .bool⟩, ⟨"i", .int⟩, ⟨"f", .float⟩, ⟨"s", .string⟩,
    ⟨"c", .cls⟩, ⟨"o", .inst⟩]
  result := .string
  fallback := some (.string "fallback")
  body _ args := .look fun view =>
    let ((_, nAt), (b, bAt), (i, iAt), (f, fAt), (s, sAt), (c, cAt), (o, oAt), _) := args
    let shown := [boolText b, toString (Int64.toInt i), Binary64.text f, s,
      (view.store.cls c).name, (view.store.classOf o).name,
      toString (view.store.inst o).fields.size]
    let places := [nAt, bAt, iAt, fAt, sAt, cAt, oAt].map Location.text
    .answer (.string (" ".intercalate shown ++ " [" ++ ", ".intercalate places ++ "]"))

/-- Shows the current scope and the calls in progress. -/
def inspect : Declaration where
  name := "inspect"
  params := []
  result := .string
  fallback := none
  body _ _ := .look fun view =>
    let names := ", ".intercalate view.current.vars.names
    let calls := view.history.map fun entry => entry.fn ++ " @ " ++ entry.site.text
    .answer (.string ("scope " ++ toString view.current.id ++ " [" ++ names ++ "] stack ["
      ++ "; ".intercalate calls ++ "]"))

/-! ## stored programs -/

/-- A stored program by its name. -/
abbrev Scripts := String → Option Program

/-- The value of a finished program; one without a value counts as null. -/
def valueOrNull : Option Located → Value
  | some located => located.value
  | none => .null

/-- The failure on a name under which no program is stored. -/
def unknownScript (site : Location) (name : String) : Action :=
  .fail site (.custom ("no script '" ++ name ++ "'"))

/-- Runs a stored program and passes its error on. -/
def script (scripts : Scripts) : Declaration where
  name := "script"
  params := [⟨"name", .string⟩]
  result := .null
  fallback := none
  body site args :=
    let ((name, _), _) := args
    match scripts name with
    | none => unknownScript site name
    | some program => .run program fun
      | .ok value => .answer (valueOrNull value)
      | .error e => .raise e

/-- Runs a stored program and answers the message of its error. -/
def attempt (scripts : Scripts) : Declaration where
  name := "attempt"
  params := [⟨"name", .string⟩]
  result := .null
  fallback := none
  body site args :=
    let ((name, _), _) := args
    match scripts name with
    | none => unknownScript site name
    | some program => .run program fun
      | .ok value => .answer (valueOrNull value)
      | .error e => .answer (.string e.cause.message)

/-! ## calling -/

/-- What `apply` publishes; it takes any number of arguments nevertheless. -/
def applyFunction : Function := ⟨"apply", [], .null, .embedded "apply"⟩

/-- Calls its first argument with the others. -/
def applyRoutine : Routine := fun call =>
  match call.args with
  | ⟨.fn ref, _⟩ :: rest => .call (.internal "apply") ref rest .ofOutcome
  | _ => .fail call.site (.custom "apply needs a function")

/-! ## all of them -/

def embeddedDeclarations (scripts : Scripts) : List Declaration :=
  [fail, probe, inspect, script scripts, attempt scripts]

/-- The functions in the order in which they are bound. -/
def embeddedFunctions : List Function :=
  (embeddedDeclarations fun _ => none).map (fun d => d.function (.embedded d.name))
    ++ [applyFunction]

/-- What each of them does; no other key is used. -/
def embeddedRoutine (scripts : Scripts) (key : String) : Routine :=
  if key = "apply" then applyRoutine
  else
    match (embeddedDeclarations scripts).find? (·.name == key) with
    | some d => d.routine
    | none => fun _ => .answer .null

end Library

/-- The host that stores these programs and has this clock. -/
def Host.ofScripts (scripts : Library.Scripts) (clock : Nat → Reading) : Host where
  embedded := Library.embeddedRoutine scripts
  clock := clock

end FieldScript
