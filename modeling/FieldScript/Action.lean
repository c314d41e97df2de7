import FieldScript.Eval
import FieldScript.Rendering

/-!
# FieldScript.Action

What a native function does when it is called.

A native function is a tree of requests: it may run programs, evaluate
expressions and call functions in the context it is called in, look at what is
there, set fields of instances it knows, read the clock and fail.  It has no other
way to act, and it cannot see the policy for malformed calls: that policy is
consulted in one place, when a function reports its own call as malformed.
-/

namespace FieldScript

/-! ## requests -/

/-- A reading of the system clock. -/
inductive Reading where
  /-- Seconds since the epoch. -/
  | seconds (value : Binary64)
  | beforeEpoch

/-- What a function can look at: the variables and calls that are alive, and the
store. -/
structure View extends Frames where
  store : Store

def World.view (w : World) : View := ⟨w.context.toFrames, w.store⟩

/-- A tree of requests that ends in a value or an error. -/
inductive Action where
  | answer (value : Value)
  /-- Passes on an error that came from a request. -/
  | raise (error : RuntimeError)
  /-- Fails with a new error. -/
  | fail (location : Location) (cause : Cause)
  /-- Reports that the arguments do not suit: the call made at `site` fails, or
  answers the fallback value where there is one and the policy says so. -/
  | malformed (site : Location) (error : ArgumentError) (fallback : Option Value)
  /-- Runs a program in the same context. -/
  | run (program : Program) (next : Except RuntimeError (Option Located) → Action)
  | eval (expr : Expr) (next : Except RuntimeError Value → Action)
  | call (site : Location) (fn : FunctionRef) (args : List Located)
      (next : Except RuntimeError Value → Action)
  | look (next : View → Action)
  | setField (inst : InstanceRef) (field : String) (value : Value) (next : Action)
  | readClock (next : Reading → Action)

/-- Passes on the outcome of a request. -/
def Action.ofOutcome : Except RuntimeError Value → Action
  | .ok value => .answer value
  | .error e => .raise e

/-- What a function is given: where it is called and its arguments, in order and
unchecked. -/
structure Call where
  site : Location
  args : List Located

/-- A function's behaviour at each call. -/
abbrev Routine := Call → Action

/-! ## performing them -/

/-- The outcome of a malformed call.  A fallback value is used only where the policy
asks for it, and the log says so. -/
def Exec.malformed (site : Location) (error : ArgumentError) (fallback : Option Value) :
    Exec Value := do
  match (← Exec.context).policy, fallback with
  | .fallback, some value =>
    Exec.emit (.fallbackUsed error ((← Exec.store).text value))
    return value
  | .raise, _ | .fallback, none => Exec.fail site (.argument error) []

/-- Reads the clock; `clock` gives its successive readings. -/
def Exec.readClock (clock : Nat → Reading) : Exec Reading := do
  let count := (← Exec.store).clockReads
  Exec.emit .clockRead
  return clock count

/-- Carries out the requests of a function. -/
def Action.perform (clock : Nat → Reading) (call : Caller) : Action → Exec Value
  | .answer value => pure value
  | .raise e => throw (.error e)
  | .fail location cause => Exec.fail location cause []
  | .malformed site error fallback => Exec.malformed site error fallback
  | .run program next => do
    let outcome ← Exec.settle (program.run call)
    (next outcome).perform clock call
  | .eval expr next => do
    let outcome ← Exec.settle (expr.eval call)
    (next outcome).perform clock call
  | .call site fn args next => do
    let outcome ← Exec.settle (call site fn args)
    (next outcome).perform clock call
  | .look next => do
    (next (← get).world.view).perform clock call
  | .setField inst field value next => do
    Exec.emit (.fieldSet inst field value)
    next.perform clock call
  | .readClock next => do
    let reading ← Exec.readClock clock
    (next reading).perform clock call

end FieldScript
