import FieldScript.Event

/-!
# FieldScript.Exec

Computations that act on a world.

A computation answers a value or stops, and on both exits the world and the
journal of its events are kept: a failed program leaves behind what it did.
`Exec.emit` is the only way to change the world, and it records the event it
performs.
-/

namespace FieldScript

/-! ## computations -/

/-- A world and the events that led to it, latest first. -/
structure Machine where
  world : World
  journal : List Event

/-- Performs an event. -/
def Machine.after (m : Machine) (event : Event) : Machine :=
  ⟨m.world.after event, event :: m.journal⟩

/-- Why a computation stops without a value. -/
inductive Stop where
  | error (error : RuntimeError)
  /-- A block was to be left, but its scope is gone: a program that failed inside
  it had dropped all blocks.  Nothing can take this up. -/
  | blockExit
  /-- Calls were nested deeper than was allowed for. -/
  | tooDeep
deriving DecidableEq

abbrev Exec := EStateM Stop Machine

namespace Exec

variable {α : Type}

/-! ## reading and writing -/

/-- Performs an event. -/
def emit (event : Event) : Exec Unit := modify (·.after event)

def context : Exec Context := do return (← get).world.context

def store : Exec Store := do return (← get).world.store

/-- The reference that the next class gets. -/
def nextClass : Exec ClassRef := do return (← store).nextClass

def nextInstance : Exec InstanceRef := do return (← store).nextInstance

def nextFunction : Exec FunctionRef := do return (← store).nextFunction

/-! ## errors -/

/-- Stops with an error that arises now. -/
def fail (location : Location) (cause : Cause) (infos : List Info) : Exec α := do
  throw (.error ((← context).error location cause infos))

/-- The outcome of a computation that can end with an error.  The other ways of
stopping pass through. -/
def settle (x : Exec α) : Exec (Except RuntimeError α) := fun m =>
  match x m with
  | .ok a m' => .ok (.ok a) m'
  | .error (.error e) m' => .ok (.error e) m'
  | .error .blockExit m' => .error .blockExit m'
  | .error .tooDeep m' => .error .tooDeep m'

/-- Goes on with an outcome: answers its value or stops with its error. -/
def resume : Except RuntimeError α → Exec α
  | .ok a => pure a
  | .error e => throw (.error e)

/-! ## blocks and calls -/

/-- Leaves the innermost block, which has to be there. -/
def leaveBlock : Exec Unit := do
  match (← context).blocks with
  | [] => throw .blockExit
  | _ :: _ => emit .blockLeft

/-- Runs a computation in the scope of a new block.  The block is left on an
error too, and the error goes on. -/
def inBlock (x : Exec α) : Exec α := do
  emit .blockEntered
  let outcome ← settle x
  leaveBlock
  resume outcome

/-- Runs a computation as the call of a function.  The call ends on an error too,
and the error goes on. -/
def inCall (entry : CallEntry) (args : Nat) (x : Exec α) : Exec α := do
  emit (.callEntered entry args)
  let outcome ← settle x
  emit .callLeft
  resume outcome

/-! ## small laws -/

/-- A sequence runs its second part in the machine that the first one leaves. -/
theorem bind_run {β : Type} (x : Exec α) (f : α → Exec β) (m : Machine) :
    (x >>= f) m =
      match x m with
      | .ok a m' => f a m'
      | .error stop m' => .error stop m' := by
  show EStateM.bind x f m = _
  unfold EStateM.bind
  cases x m <;> rfl

@[simp] theorem pure_run (a : α) (m : Machine) : (pure a : Exec α) m = .ok a m := rfl

@[simp] theorem throw_run (stop : Stop) (m : Machine) :
    (throw stop : Exec α) m = .error stop m := rfl

/-- An event changes the world and is noted. -/
@[simp] theorem emit_run (event : Event) (m : Machine) :
    emit event m = .ok () (m.after event) := rfl

@[simp] theorem context_run (m : Machine) : context m = .ok m.world.context m := rfl

@[simp] theorem store_run (m : Machine) : store m = .ok m.world.store m := rfl

@[simp] theorem nextClass_run (m : Machine) :
    nextClass m = .ok m.world.store.nextClass m := rfl

@[simp] theorem nextInstance_run (m : Machine) :
    nextInstance m = .ok m.world.store.nextInstance m := rfl

@[simp] theorem nextFunction_run (m : Machine) :
    nextFunction m = .ok m.world.store.nextFunction m := rfl

/-- A failure changes nothing, and its error lists the calls of the context. -/
@[simp] theorem fail_run (location : Location) (cause : Cause) (infos : List Info) (m : Machine) :
    (fail location cause infos : Exec α) m =
      .error (.error (m.world.context.error location cause infos)) m := rfl

@[simp] theorem resume_ok (a : α) : resume (.ok a : Except RuntimeError α) = pure a := rfl

@[simp] theorem resume_error (e : RuntimeError) :
    resume (.error e : Except RuntimeError α) = throw (.error e) := rfl

/-- Settling turns errors of the language into answers and lets every other stop through. -/
theorem settle_run (x : Exec α) (m : Machine) :
    settle x m =
      match x m with
      | .ok a m' => .ok (.ok a) m'
      | .error (.error e) m' => .ok (.error e) m'
      | .error .blockExit m' => .error .blockExit m'
      | .error .tooDeep m' => .error .tooDeep m' := rfl

/-- Where no block is open any more, none can be left. -/
theorem leaveBlock_run_of_nil {m : Machine} (h : m.world.context.blocks = []) :
    leaveBlock m = .error .blockExit m := by
  simp [leaveBlock, bind_run, h]

/-- A block is left if the scope of one is there. -/
theorem leaveBlock_run_of_ne_nil {m : Machine} (h : m.world.context.blocks ≠ []) :
    leaveBlock m = .ok () (m.after .blockLeft) := by
  cases hb : m.world.context.blocks with
  | nil => exact absurd hb h
  | cons scope outer => simp [leaveBlock, bind_run, hb]

end Exec

end FieldScript
