import FieldScript.Host

/-!
# FieldScript.Proofs.Sequential

Properties that pass from parts of a computation to the whole.

Expressions are evaluated part by part, one after the other.  So a property that passes
on from one thing to the next (`Sequential`) holds of an expression if it holds of reading
a field, of making an instance and of calls (`Evaluative`, `Expr.has_eval`).  It holds of
instructions if it also holds of what they change and passes on to blocks (`Executive`,
`Instr.has_run`).

A property that holds of any failure and of single events (`Acting`) holds of reading fields
and of making instances, and if what functions request has it as well (`Hosted`), then so have
calls (`Host.has_call`).
-/

namespace FieldScript

/-- A property of computations that passes on to what is done one after the other, and
that failing has unless the arguments of a call are to blame. -/
structure Sequential (P : ∀ {α : Type}, Exec α → Prop) : Prop where
  pure : ∀ {α : Type} (a : α), P (Pure.pure a : Exec α)
  fail : ∀ {α : Type} (location : Location) (cause : Cause) (infos : List Info),
    (∀ error, cause ≠ .argument error) → P (Exec.fail location cause infos : Exec α)
  context : P Exec.context
  bind : ∀ {α β : Type} {x : Exec α} {f : α → Exec β}, P x → (∀ a, P (f a)) → P (x >>= f)

/-- Such a property, of what expressions are made of as well: reading fields, making
instances and calling functions. -/
structure Evaluative (P : ∀ {α : Type}, Exec α → Prop) (call : Caller) : Prop
    extends Sequential P where
  read : ∀ target range field, P (readField target range field)
  make : ∀ range cls args, P (instantiate range cls args)
  call : ∀ site ref args, P (call site ref args)

/-- Such a property, of what instructions are made of as well: changing variables and
fields, declaring classes and running blocks. -/
structure Executive (P : ∀ {α : Type}, Exec α → Prop) (call : Caller) : Prop
    extends Evaluative P call where
  declare : ∀ name value, P (Exec.emit (.declared name value))
  assign : ∀ name value, P (assignVariable name value)
  write : ∀ target range field value, P (writeField target range field value)
  declareClass : ∀ name, P (declareClass name)
  inBlock : ∀ {α : Type} {x : Exec α}, P x → P (Exec.inBlock x)

section

variable {P : ∀ {α : Type}, Exec α → Prop}

namespace Sequential

/-- Expecting an instance gives it or fails. -/
theorem expectInstance (hP : Sequential P) (target : Value) (range : Range) :
    P (expectInstance target range) := by
  cases target with
  | inst ref => exact hP.pure ref
  | null | bool | int | float | string | cls | fn => exact hP.fail _ _ _ nofun

/-- Expecting a truth value gives it or fails. -/
theorem expectBool (hP : Sequential P) (range : Range) (value : Value) :
    P (expectBool range value) := by
  cases value with
  | bool b => exact hP.pure b
  | null | int | float | string | cls | inst | fn => exact hP.fail _ _ _ nofun

/-- Reading a variable looks at the context and nothing else. -/
theorem readVariable (hP : Sequential P) (name : Name) : P (readVariable name) := by
  refine hP.bind hP.context fun c => ?_
  cases c.get? name.text with
  | some located => exact hP.pure _
  | none => exact hP.fail _ _ _ nofun

end Sequential

variable {call : Caller}

/-- Calling a value is calling a function, making an instance or a failure. -/
theorem Evaluative.callValue (hP : Evaluative P call) (range calleeRange : Range)
    (callee : Value) (args : List Located) : P (callValue call range calleeRange callee args) := by
  cases callee with
  | fn ref => exact hP.call _ ref args
  | cls ref => exact hP.make range ref args
  | null | bool | int | float | string | inst => exact hP.fail _ _ _ nofun

mutual

/-- What reads, makes and calls have, every evaluation has, by structure. -/
theorem Expr.has_eval (hP : Evaluative P call) : (e : Expr) → P (e.eval call)
  | .literal _ value => by
      rw [Expr.eval]
      exact hP.pure _
  | .variable _ name => by
      rw [Expr.eval]
      exact hP.readVariable name
  | .field _ target name => by
      rw [Expr.eval]
      exact hP.bind (target.has_eval hP) fun _ => hP.read _ _ name
  | .call range callee _ args => by
      rw [Expr.eval]
      refine hP.bind (callee.has_eval hP) fun _ => ?_
      refine hP.bind (Expr.has_evalList hP args) fun _ => ?_
      exact hP.callValue _ _ _ _
  | .not _ inner => by
      rw [Expr.eval]
      refine hP.bind (inner.has_eval hP) fun _ => ?_
      refine hP.bind (hP.expectBool _ _) fun _ => ?_
      exact hP.pure _
  | .eq _ left right => by
      rw [Expr.eval]
      refine hP.bind (left.has_eval hP) fun _ => ?_
      refine hP.bind (right.has_eval hP) fun _ => ?_
      exact hP.pure _

/-- So does the evaluation of arguments, one after the other. -/
theorem Expr.has_evalList (hP : Evaluative P call) : (es : List Expr) → P (Expr.evalList call es)
  | [] => by
      rw [Expr.evalList]
      exact hP.pure _
  | e :: rest => by
      rw [Expr.evalList]
      refine hP.bind (e.has_eval hP) fun _ => ?_
      refine hP.bind (Expr.has_evalList hP rest) fun _ => ?_
      exact hP.pure _

end

/-! ## instructions -/

mutual

/-- What declarations, assignments and blocks have besides, every instruction has. -/
theorem Instr.has_run (hP : Executive P call) : (instr : Instr) → P (instr.run call)
  | .declare _ name init => by
      rw [Instr.run]
      refine hP.bind (init.has_eval hP.toEvaluative) fun _ => ?_
      refine hP.bind (hP.declare name.text _) fun _ => ?_
      exact hP.pure _
  | .assign _ name expr => by
      rw [Instr.run]
      refine hP.bind (expr.has_eval hP.toEvaluative) fun _ => ?_
      refine hP.bind (hP.assign name _) fun _ => ?_
      exact hP.pure _
  | .setField _ target field expr => by
      rw [Instr.run]
      refine hP.bind (target.has_eval hP.toEvaluative) fun _ => ?_
      refine hP.bind (expr.has_eval hP.toEvaluative) fun _ => ?_
      refine hP.bind (hP.write _ _ field _) fun _ => ?_
      exact hP.pure _
  | .classDecl _ name => by
      rw [Instr.run]
      exact hP.bind (hP.declareClass name) fun _ => hP.pure _
  | .ifThen _ test body => by
      rw [Instr.run]
      refine hP.bind (test.has_eval hP.toEvaluative) fun _ => ?_
      refine hP.bind (hP.expectBool _ _) fun holds => ?_
      cases holds with
      | true => exact body.has_run hP
      | false => exact hP.pure _
  | .ifElse _ test body otherwise => by
      rw [Instr.run]
      refine hP.bind (test.has_eval hP.toEvaluative) fun _ => ?_
      refine hP.bind (hP.expectBool _ _) fun holds => ?_
      cases holds with
      | true => exact body.has_run hP
      | false => exact otherwise.has_run hP
  | .eval _ expr => by
      rw [Instr.run]
      exact hP.bind (expr.has_eval hP.toEvaluative) fun _ => hP.pure _

/-- So has every block. -/
theorem Block.has_run (hP : Executive P call) : (block : Block) → P (block.run call)
  | .mk _ instrs => by
      rw [Block.run]
      exact hP.inBlock (Instr.has_runList hP none instrs)

theorem Instr.has_runList (hP : Executive P call) : (latest : Option Located) →
    (instrs : List Instr) → P (Instr.runList call latest instrs)
  | latest, [] => by
      rw [Instr.runList]
      exact hP.pure latest
  | _, instr :: rest => by
      rw [Instr.runList]
      exact hP.bind (instr.has_run hP) fun value => Instr.has_runList hP value rest

end

end

/-! ## single events -/

/-- An event that an expression or a function brings about, be it called or not. -/
def Event.IsAct : Event → Prop
  | .instantiated _ _ | .fieldMissed _ _ _ | .fallbackUsed _ _ | .clockRead => True
  | _ => False

/-- A property that passes on to what is done one after the other, of all failures and of
single events. -/
structure Acting (P : ∀ {α : Type}, Exec α → Prop) : Prop extends Sequential P where
  raise : ∀ {α : Type} (e : RuntimeError), P (throw (.error e) : Exec α)
  store : P Exec.store
  act : ∀ {event : Event}, event.IsAct → P (Exec.emit event)

/-- Such a property, of what functions do as well. -/
structure Hosted (P : ∀ {α : Type}, Exec α → Prop) : Prop extends Acting P where
  tooDeep : ∀ {α : Type}, P (throw .tooDeep : Exec α)
  look : P (get : Exec Machine)
  settle : ∀ {α : Type} {x : Exec α}, P x → P (Exec.settle x)
  setField : ∀ inst field value, P (Exec.emit (.fieldSet inst field value))
  enterCall : ∀ entry args, P (Exec.emit (.callEntered entry args))
  leaveCall : P (Exec.emit .callLeft)

section

variable {P : ∀ {α : Type}, Exec α → Prop}

namespace Acting

/-- Any failure is an error raised in the context. -/
theorem anyFailure (hP : Acting P) {α : Type} (location : Location) (cause : Cause)
    (infos : List Info) : P (Exec.fail location cause infos : Exec α) :=
  hP.bind hP.context fun _ => hP.raise _

/-- A field that is absent is told before the failure. -/
theorem readField (hP : Acting P) (target : Value) (range : Range) (field : Name) :
    P (readField target range field) := by
  refine hP.bind (hP.expectInstance target range) fun ref => ?_
  refine hP.bind hP.store fun s => ?_
  cases s.field? ref field.text with
  | some value => exact hP.pure value
  | none => exact hP.bind (hP.act trivial) fun _ => hP.anyFailure _ _ _

/-- Making an instance is an act, and arguments to a class are a failure. -/
theorem instantiate (hP : Acting P) (range : Range) (cls : ClassRef) (args : List Located) :
    P (instantiate range cls args) := by
  refine hP.bind hP.store fun s => ?_
  cases args with
  | cons arg rest => exact hP.anyFailure _ _ _
  | nil =>
      have hnext : P Exec.nextInstance := hP.bind hP.store fun _ => hP.pure _
      refine hP.bind hnext fun _ => ?_
      refine hP.bind (hP.act trivial) fun _ => ?_
      exact hP.pure _

/-- Acts and calls are all that evaluating needs. -/
theorem evaluative (hP : Acting P) {call : Caller}
    (hcall : ∀ site ref args, P (call site ref args)) : Evaluative P call where
  toSequential := hP.toSequential
  read := hP.readField
  make := hP.instantiate
  call := hcall

/-- A malformed call is an error, or a fallback that is told. -/
theorem malformed (hP : Acting P) (site : Location) (error : ArgumentError)
    (fallback : Option Value) : P (Exec.malformed site error fallback) := by
  refine hP.bind hP.context fun c => ?_
  cases c.policy with
  | raise => exact hP.anyFailure _ _ _
  | fallback =>
      cases fallback with
      | none => exact hP.anyFailure _ _ _
      | some value =>
          refine hP.bind hP.store fun _ => ?_
          refine hP.bind (hP.act trivial) fun _ => ?_
          exact hP.pure _

theorem readClock (hP : Acting P) (clock : Nat → Reading) : P (Exec.readClock clock) := by
  refine hP.bind hP.store fun _ => ?_
  exact hP.bind (hP.act trivial) fun _ => hP.pure _

/-- Going on with an outcome is an answer or an error. -/
theorem resume (hP : Acting P) {α : Type} (outcome : Except RuntimeError α) :
    P (Exec.resume outcome) := by
  cases outcome with
  | ok a => exact hP.pure a
  | error e => exact hP.raise e

end Acting

/-! ## functions and calls -/

/-- A call is entered, gone through and left. -/
theorem Hosted.inCall (hP : Hosted P) {α : Type} {x : Exec α} (hx : P x) (entry : CallEntry)
    (args : Nat) : P (Exec.inCall entry args x) := by
  refine hP.bind (hP.enterCall entry args) fun _ => ?_
  refine hP.bind (hP.settle hx) fun outcome => ?_
  exact hP.bind hP.leaveCall fun _ => hP.resume outcome

/-- A function has a property if the programs that it runs do and the functions that it
calls. -/
theorem Action.has_perform (hP : Hosted P) {call : Caller}
    (hprogram : ∀ program : Program, P (program.run call))
    (hcall : ∀ site ref args, P (call site ref args)) (clock : Nat → Reading) (action : Action) :
    P (action.perform clock call) := by
  induction action with
  | answer value => exact hP.pure value
  | raise e => exact hP.raise e
  | fail location cause => exact hP.anyFailure _ _ _
  | malformed site error fallback => exact hP.malformed site error fallback
  | run program next ih => exact hP.bind (hP.settle (hprogram program)) ih
  | eval expr next ih => exact hP.bind (hP.settle (expr.has_eval (hP.evaluative hcall))) ih
  | call site fn args next ih => exact hP.bind (hP.settle (hcall site fn args)) ih
  | look next ih => exact hP.bind hP.look fun m => ih _
  | setField inst field value next ih => exact hP.bind (hP.setField inst field value) fun _ => ih
  | readClock next ih => exact hP.bind (hP.readClock clock) ih

/-- A call has a property if programs have it that are run where all calls have it. -/
theorem Host.has_call (hP : Hosted P) (h : Host)
    (hrun : ∀ depth, (∀ site ref args, P (h.call depth site ref args)) →
      ∀ program, P (h.run depth program))
    (depth : Nat) (site : Location) (ref : FunctionRef) (args : List Located) :
    P (h.call depth site ref args) := by
  induction depth generalizing site ref args with
  | zero => exact hP.tooDeep
  | succ depth ih =>
      refine hP.bind hP.store fun s => ?_
      exact hP.inCall (Action.has_perform hP (hrun depth ih) ih h.clock _) _ _

end

end FieldScript
