import FieldScript.Context

/-!
# FieldScript.Event

What happens while programs run, one event at a time.

The state that programs see is a `World`: a context and the store that it shares
with other contexts.  Whatever a program or a function does to it is an `Event`,
and `World.after` says what each event changes.  A run keeps the journal of its
events, so the world at any moment of a run is the world at its start after the
events so far, and the log is a reading of the journal.
-/

namespace FieldScript

/-! ## worlds -/

/-- What a run works on. -/
structure World where
  context : Context
  store : Store

/-! ## events -/

inductive Event where
  /-- A library with so many functions was put together. -/
  | libraryBuilt (functions : Nat)
  /-- A program with so many instructions starts in the current scope. -/
  | programStarted (instructions : Nat)
  | programCompleted
  /-- A program failed; the context goes back to its base scope. -/
  | programAborted (error : RuntimeError)
  | blockEntered
  | blockLeft
  | callEntered (entry : CallEntry) (args : Nat)
  | callLeft
  | declared (name : String) (value : Located)
  | assigned (name : String) (value : Located)
  | classCreated (info : ClassInfo)
  /-- A program called a class, which has this name. -/
  | instantiated (cls : ClassRef) (name : String)
  /-- An instance came from outside the program. -/
  | instanceSupplied (cls : ClassRef)
  | functionCreated (fn : Function)
  | fieldSet (inst : InstanceRef) (field : String) (value : Value)
  /-- A field was read that an instance of this class does not have. -/
  | fieldMissed (inst : InstanceRef) (cls : ClassInfo) (field : Name)
  /-- A malformed call was answered with the function's fallback value, shown as
  this text. -/
  | fallbackUsed (error : ArgumentError) (shown : String)
  | clockRead
deriving DecidableEq

/-- The world once an event has happened. -/
def World.after (w : World) : Event → World
  | .programAborted _ => { w with context := w.context.reset }
  | .blockEntered => { w with context := w.context.enterBlock }
  | .blockLeft => { w with context := w.context.leaveBlock }
  | .callEntered entry _ => { w with context := w.context.enterCall entry }
  | .callLeft => { w with context := w.context.leaveCall }
  | .declared name value => { w with context := w.context.declare name value }
  | .assigned name value =>
    match w.context.assign name value with
    | .done context => { w with context := context }
    | .libraryItem | .unbound => w
  | .classCreated info => { w with store := w.store.addClass info }
  | .instantiated cls _ | .instanceSupplied cls => { w with store := w.store.addInstance cls }
  | .functionCreated fn => { w with store := w.store.addFunction fn }
  | .fieldSet inst field value => { w with store := w.store.setField inst field value }
  | .clockRead => { w with store := w.store.countReading }
  | .libraryBuilt _ | .programStarted _ | .programCompleted | .fieldMissed _ _ _
  | .fallbackUsed _ _ => w

/-- The world after a journal of events, latest first. -/
def World.afterAll (w : World) : List Event → World
  | [] => w
  | event :: earlier => (w.afterAll earlier).after event

@[simp] theorem World.afterAll_nil (w : World) : w.afterAll [] = w := rfl

@[simp] theorem World.afterAll_cons (w : World) (event : Event) (earlier : List Event) :
    w.afterAll (event :: earlier) = (w.afterAll earlier).after event := rfl

/-- The earlier events come first. -/
theorem World.afterAll_append (w : World) (later earlier : List Event) :
    w.afterAll (later ++ earlier) = (w.afterAll earlier).afterAll later := by
  induction later with
  | nil => rfl
  | cons event rest ih => simp [ih]

/-! ## the log -/

/-- How much detail a line of the log is. -/
inductive Level where
  | debug | trace
deriving DecidableEq

/-- A line of the log: a fixed message and what goes with it. -/
structure LogLine where
  level : Level
  message : String
  fields : List (String × String)
deriving DecidableEq

/-- The line of the log that an event gives, if it gives one. -/
def Event.line? : Event → Option LogLine
  | .libraryBuilt n => some ⟨.debug, "built native library", [("functions", toString n)]⟩
  | .programStarted n => some ⟨.debug, "running program", [("instructions", toString n)]⟩
  | .programCompleted => some ⟨.debug, "program completed", []⟩
  | .programAborted error =>
    some ⟨.debug, "program aborted", [("error", error.cause.message)]⟩
  | .callEntered entry args =>
    some ⟨.trace, "calling native function", [("name", entry.fn), ("args", toString args)]⟩
  | .instantiated _ name => some ⟨.trace, "creating instance", [("class", name)]⟩
  | .fieldMissed _ cls field =>
    some ⟨.debug, "read of an unassigned field, aborting program",
      [("class", cls.name), ("field", field.text)]⟩
  | .fallbackUsed error shown =>
    some ⟨.debug, "malformed native call, using fallback value",
      [("error", error.message), ("fallback", shown)]⟩
  | .blockEntered | .blockLeft | .callLeft | .declared _ _ | .assigned _ _ | .classCreated _
  | .instanceSupplied _ | .functionCreated _ | .fieldSet _ _ _ | .clockRead => none

/-- The log of a journal whose latest event comes first, as lines in order. -/
def logOf (journal : List Event) : List LogLine := journal.reverse.filterMap Event.line?

@[simp] theorem logOf_nil : logOf [] = [] := rfl

/-- A later event adds its line, if any, at the end. -/
theorem logOf_cons (event : Event) (journal : List Event) :
    logOf (event :: journal) = logOf journal ++ event.line?.toList := by
  cases h : event.line? <;> simp [logOf, h]

end FieldScript
