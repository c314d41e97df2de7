import FieldScript.Host
import FieldScript.Proofs.Sequential
import FieldScript.Proofs.Traced

/-!
# FieldScript.Proofs.Runs

Every computation of the language has a trace.

The proof follows the definitions: expressions and instructions by their parts
(`Instr.has_run`), functions by recursion on their requests, and calls by recursion on the
depth.  What functions do is known only as far as the functions that exist keep
within given powers (`Host.Within`).
-/

namespace FieldScript

/-! ## what functions do -/

namespace Action

/-- A function keeps within powers: it runs programs only if it may, and passes on
the errors of its requests if it has to. -/
def Within (p : Powers) : Action → Prop
  | .answer _ | .raise _ | .fail _ _ | .malformed _ _ _ => True
  | .run _ next =>
    p.runs = true ∧ (p.recovers = false → ∀ e, next (.error e) = .raise e) ∧
      ∀ outcome, (next outcome).Within p
  | .eval _ next | .call _ _ _ next =>
    (p.recovers = false → ∀ e, next (.error e) = .raise e) ∧ ∀ outcome, (next outcome).Within p
  | .look next => ∀ view, (next view).Within p
  | .setField _ _ _ next => next.Within p
  | .readClock next => ∀ reading, (next reading).Within p

/-- Everything that a function can do lies within all powers. -/
theorem within_all (action : Action) : action.Within .all := by
  induction action with
  | answer | raise | fail | malformed => trivial
  | run program next ih => exact ⟨rfl, nofun, ih⟩
  | eval expr next ih => exact ⟨nofun, ih⟩
  | call site fn args next ih => exact ⟨nofun, ih⟩
  | look next ih => exact ih
  | setField inst field value next ih => exact ih
  | readClock next ih => exact ih

end Action

/-- All functions of a store keep within powers, whatever they are given. -/
def Host.Within (h : Host) (p : Powers) (s : Store) : Prop :=
  ∀ ref call, (h.routine (s.fn ref).behaviour call).Within p

theorem Host.within_all (h : Host) (s : Store) : h.Within .all s := by
  intro key _
  exact Action.within_all _

/-- The functions of a store are all that a reference to one depends on. -/
theorem Store.fn_of_functions {s s' : Store} (h : s'.functions = s.functions) (ref : FunctionRef) :
    s'.fn ref = s.fn ref := by
  rw [Store.fn, Store.fn, h]

/-- What functions are able to do depends on the functions alone. -/
theorem Host.Within.of_functions {h : Host} {p : Powers} {s s' : Store} (hw : h.Within p s)
    (hs : s'.functions = s.functions) : h.Within p s' := by
  intro ref call
  rw [Store.fn_of_functions hs]
  exact hw ref call

/-! ## fields, variables and calls -/

section Steps

variable {p : Powers} {fns : Array Function}

/-- Traced computations can be put one after the other, and failing is one. -/
theorem sequential_traced : Sequential (Traced p fns) where
  pure := traced_pure
  fail location cause infos _ := traced_fail location cause infos
  context m _ := leads_silent m nofun
  bind := Traced.bind

/-- A field that is absent is missed, and the error says so. -/
theorem readField_run (ref : InstanceRef) (range : Range) (field : Name) (m : Machine) :
    readField (.inst ref) range field m =
      match m.world.store.field? ref field.text with
      | some value => .ok value m
      | none =>
        let cls := m.world.store.classOf ref
        .error (.error (m.world.context.missingField cls field))
          (m.after (.fieldMissed ref cls field)) := by
  cases h : m.world.store.field? ref field.text with
  | some value => simp [readField, expectInstance, Exec.bind_run, h]
  | none =>
      simp [readField, expectInstance, Exec.bind_run, h, Machine.after, World.after,
        Context.missingField]

/-- Reading a field is traced, with the event of a miss before the error. -/
theorem traced_readField (target : Value) (range : Range) (field : Name) :
    Traced p fns (readField target range field) := by
  cases target with
  | inst ref =>
      intro m _
      have hrun := readField_run ref range field m
      cases h : m.world.store.field? ref field.text with
      | some value =>
          rw [h] at hrun
          have hread : Leads p m .done m := leads_silent m nofun
          exact hread.of_run (y := pure value) hrun
      | none =>
          rw [h] at hrun
          have hmiss : Leads p m (.failed _) (m.after (.fieldMissed ref _ field)) :=
            ⟨_, rfl, .missed rfl h⟩
          exact hmiss.of_stop hrun
  | null | bool | int | float | string | cls | fn => exact traced_fail _ _ _

/-- Writing a field is one effect. -/
theorem traced_writeField (target : Value) (range : Range) (field : Name) (value : Value) :
    Traced p fns (writeField target range field value) := by
  refine (sequential_traced.expectInstance target range).bind fun _ => ?_
  exact traced_emit _

/-- Assigning is one effect or a failure. -/
theorem traced_assignVariable (name : Name) (value : Located) :
    Traced p fns (assignVariable name value) := by
  refine traced_context_bind fun c => ?_
  cases c.assign name.text value with
  | done _ => exact traced_emit _
  | libraryItem | unbound => exact traced_fail _ _ _

/-- Declaring a class is two effects, making it and binding it. -/
theorem traced_declareClass (name : Name) : Traced p fns (declareClass name) := by
  refine traced_nextClass.bind fun _ => ?_
  refine (traced_emit _).bind fun _ => ?_
  exact traced_emit _

/-- Making an instance is one effect or a failure. -/
theorem traced_instantiate (range : Range) (cls : ClassRef) (args : List Located) :
    Traced p fns (instantiate range cls args) := by
  refine traced_store_bind fun s _ => ?_
  cases args with
  | cons arg rest => exact traced_fail _ _ _
  | nil =>
      refine traced_nextInstance.bind fun _ => ?_
      refine (traced_emit _).bind fun _ => ?_
      exact traced_pure _

/-! ## expressions and instructions -/

variable {call : Caller}

/-- All that instructions are made of is traced, if calls are. -/
theorem executive_traced (hcall : ∀ site ref args, Traced p fns (call site ref args)) :
    Executive (Traced p fns) call where
  toEvaluative := ⟨sequential_traced, traced_readField, traced_instantiate, hcall⟩
  declare _ _ := traced_emit _
  assign := traced_assignVariable
  write := traced_writeField
  declareClass := traced_declareClass
  inBlock := traced_inBlock

/-- Every evaluation is traced, if calls are. -/
theorem Expr.traced_eval (hcall : ∀ site ref args, Traced p fns (call site ref args))
    (e : Expr) : Traced p fns (e.eval call) :=
  e.has_eval (executive_traced hcall).toEvaluative

theorem Block.traced_run (hcall : ∀ site ref args, Traced p fns (call site ref args))
    (block : Block) : Traced p fns (block.run call) :=
  block.has_run (executive_traced hcall)

/-- Every list of instructions is traced, if calls are. -/
theorem Instr.traced_runList (hcall : ∀ site ref args, Traced p fns (call site ref args))
    (latest : Option Located) (instrs : List Instr) :
    Traced p fns (Instr.runList call latest instrs) :=
  Instr.has_runList (executive_traced hcall) latest instrs

end Steps

/-! ## functions -/

/-- A malformed call is an error or one effect, by the policy of the context. -/
theorem traced_malformed {p : Powers} {fns : Array Function} (site : Location)
    (error : ArgumentError) (fallback : Option Value) :
    Traced p fns (Exec.malformed site error fallback) := by
  refine traced_context_bind fun c => ?_
  cases c.policy with
  | raise => exact traced_fail _ _ _
  | fallback =>
      cases fallback with
      | none => exact traced_fail _ _ _
      | some value =>
          refine traced_store_bind fun _ _ => ?_
          refine (traced_emit _).bind fun _ => ?_
          exact traced_pure _

/-- Reading the clock is one effect. -/
theorem traced_readClock {p : Powers} {fns : Array Function} (clock : Nat → Reading) :
    Traced p fns (Exec.readClock clock) := by
  refine traced_store_bind fun _ _ => ?_
  exact (traced_emit _).bind fun _ => traced_pure _

/-- A function has a trace if the functions it calls have one. -/
theorem Action.traced_perform {p : Powers} {fns : Array Function} (clock : Nat → Reading)
    {call : Caller} (hcall : ∀ site ref args, Traced p fns (call site ref args))
    (action : Action) (h : action.Within p) : Traced p fns (action.perform clock call) := by
  induction action with
  | answer value => exact traced_pure value
  | raise e => exact traced_raise e
  | fail location cause => exact traced_fail _ _ _
  | malformed site error fallback => exact traced_malformed site error fallback
  | run program next ih =>
      obtain ⟨hruns, herror, hnext⟩ := h
      have hprogram := traced_program hruns call program (Instr.traced_runList hcall none program)
      refine hprogram.settle_bind (fun outcome => ih outcome (hnext outcome)) fun hp e => ?_
      rw [herror hp e]
      rfl
  | eval expr next ih =>
      obtain ⟨herror, hnext⟩ := h
      refine (expr.traced_eval hcall).settle_bind
        (fun outcome => ih outcome (hnext outcome)) fun hp e => ?_
      rw [herror hp e]
      rfl
  | call site fn args next ih =>
      obtain ⟨herror, hnext⟩ := h
      refine (hcall site fn args).settle_bind
        (fun outcome => ih outcome (hnext outcome)) fun hp e => ?_
      rw [herror hp e]
      rfl
  | look next ih => exact traced_get_bind fun m => ih _ (h _)
  | setField inst field value next ih => exact (traced_emit _).bind fun _ => ih h
  | readClock next ih => exact (traced_readClock clock).bind fun reading => ih reading (h reading)

/-! ## calls and programs -/

variable {h : Host} {p : Powers} {s : Store}

/-- Calls of functions that keep within powers have traces made for these powers. -/
theorem Host.Within.traced_call (hw : h.Within p s) (depth : Nat) (site : Location)
    (ref : FunctionRef) (args : List Located) :
    Traced p s.functions (h.call depth site ref args) := by
  induction depth generalizing site ref args with
  | zero => exact traced_tooDeep
  | succ depth ih =>
      refine traced_store_bind fun s' hs => traced_inCall _ _ ?_
      rw [Store.fn_of_functions hs]
      exact Action.traced_perform h.clock ih _ (hw ref ⟨site, args⟩)

/-- What a host evaluates is traced within the powers of its functions. -/
theorem Host.Within.traced_eval (hw : h.Within p s) (depth : Nat) (expr : Expr) :
    Traced p s.functions (h.eval depth expr) :=
  expr.traced_eval (hw.traced_call depth)

theorem Host.Within.traced_body (hw : h.Within p s) (depth : Nat) (program : Program) :
    Traced p s.functions (Instr.runList (h.call depth) none program) :=
  Instr.traced_runList (hw.traced_call depth) none program

/-- So is what it runs, if running programs is among these powers. -/
theorem Host.Within.traced_run (hw : h.Within p s) (hp : p.runs = true) (depth : Nat)
    (program : Program) : Traced p s.functions (h.run depth program) :=
  traced_program hp _ program (hw.traced_body depth program)

end FieldScript
