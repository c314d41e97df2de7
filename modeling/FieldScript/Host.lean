import FieldScript.Library

/-!
# FieldScript.Host

The program that the language is embedded in.

A host brings functions of its own, each under a key, and the clock.  Here calls of
functions get their meaning: the call is entered, the function's requests are
carried out and the call is left, on an error too.  A function may run programs
that call functions again, so the depth of calls is bounded by an argument; a run
that keeps below the bound does not depend on it.
-/

namespace FieldScript

structure Host where
  /-- The host's own functions by key. -/
  embedded : String → Routine
  /-- The successive readings of the clock. -/
  clock : Nat → Reading

namespace Host

/-- What a function with this behaviour does. -/
def routine (h : Host) : Behaviour → Routine
  | .clock => Library.clock.routine
  | .hasField => Library.hasField.routine
  | .inert => fun _ => .answer .null
  | .embedded key => h.embedded key

/-- Calls a function.  At most `depth` calls may be in progress at once. -/
def call (h : Host) : (depth : Nat) → Caller
  | 0, _, _, _ => throw .tooDeep
  | depth + 1, site, ref, args => do
    let fn := (← Exec.store).fn ref
    Exec.inCall ⟨fn.name, site⟩ args.length
      ((h.routine fn.behaviour ⟨site, args⟩).perform h.clock (h.call depth))

/-- Runs a program in the current scope. -/
def run (h : Host) (depth : Nat) (program : Program) : Exec (Option Located) :=
  program.run (h.call depth)

/-- Evaluates an expression by itself; a failure does not reset the context. -/
def eval (h : Host) (depth : Nat) (expr : Expr) : Exec Value :=
  expr.eval (h.call depth)

end Host

end FieldScript
