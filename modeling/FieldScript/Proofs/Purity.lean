import FieldScript.Proofs.BlockExit
import FieldScript.Proofs.Fallback
import FieldScript.Proofs.FieldExistence

/-!
# FieldScript.Proofs.Purity

What evaluating leaves alone.

A function keeps its hands off if it neither runs programs nor sets fields
(`Host.HandsOff`); the language's own functions do.  Where all functions do, evaluating an
expression can add new instances and reads the clock, and that is all it does to a world
(`World.Spares`), whether it succeeds or fails.  So an instruction that fails has changed
nothing either: what it changes comes last, after everything that can go wrong.
-/

namespace FieldScript

/-! ## functions that change nothing -/

/-- A function that neither runs programs nor sets fields, and that evaluates expressions
and calls functions only if it may. -/
def Action.HandsOff (calls : Bool) : Action → Prop
  | .answer _ | .raise _ | .fail _ _ | .malformed _ _ _ => True
  | .run _ _ | .setField _ _ _ _ => False
  | .eval _ next | .call _ _ _ next => calls = true ∧ ∀ outcome, (next outcome).HandsOff calls
  | .look next => ∀ view, (next view).HandsOff calls
  | .readClock next => ∀ reading, (next reading).HandsOff calls

/-- All functions of a store keep their hands off, whatever they are given. -/
def Host.HandsOff (h : Host) (calls : Bool) (s : Store) : Prop :=
  ∀ ref call, (h.routine (s.fn ref).behaviour call).HandsOff calls

/-- A declared function keeps its hands off if its body does, whatever it is called with. -/
theorem Declaration.handsOff_routine {calls : Bool} (d : Declaration)
    (h : ∀ site args, (d.body site args).HandsOff calls) (call : Call) :
    (d.routine call).HandsOff calls := by
  unfold routine
  split
  · exact h _ _
  · trivial

/-- The language's own functions keep their hands off and call nothing. -/
theorem Store.OwnOnly.handsOff {s : Store} (hs : s.OwnOnly) (h : Host) (calls : Bool) :
    h.HandsOff calls s := by
  intro ref call
  obtain hmem | hnone := s.fn_mem_or ref
  · obtain hb | hb := hs _ hmem
    · rw [hb]
      refine Library.clock.handsOff_routine (fun site args reading => ?_) call
      cases reading <;> trivial
    · rw [hb]
      exact Library.hasField.handsOff_routine (fun _ _ _ => trivial) call
  · rw [hnone]
    trivial

/-! ## what is left alone -/

/-- Everything in the first store is unchanged in the second: classes, functions, and
instances with all their fields. -/
structure Store.Spares (s s' : Store) : Prop where
  classes : ∀ ref : ClassRef, ref.index < s.classes.size →
    ref.index < s'.classes.size ∧ s'.cls ref = s.cls ref
  instances : ∀ ref : InstanceRef, ref.index < s.instances.size →
    ref.index < s'.instances.size ∧ s'.inst ref = s.inst ref
  functions : s'.functions = s.functions

namespace Store

theorem Spares.rfl {s : Store} : s.Spares s where
  classes _ h := ⟨h, Eq.refl _⟩
  instances _ h := ⟨h, Eq.refl _⟩
  functions := Eq.refl _

/-- What is left alone twice is left alone. -/
theorem Spares.trans {a b c : Store} (h : a.Spares b) (h' : b.Spares c) : a.Spares c where
  classes ref href := by
    obtain ⟨hb, heq⟩ := h.classes ref href
    obtain ⟨hc, heq'⟩ := h'.classes ref hb
    exact ⟨hc, heq'.trans heq⟩
  instances ref href := by
    obtain ⟨hb, heq⟩ := h.instances ref href
    obtain ⟨hc, heq'⟩ := h'.instances ref hb
    exact ⟨hc, heq'.trans heq⟩
  functions := h'.functions.trans h.functions

/-- A new class leaves all others alone. -/
theorem spares_addClass (s : Store) (info : ClassInfo) : s.Spares (s.addClass info) where
  classes := (s.grows_addClass info).classes
  instances _ h := ⟨h, rfl⟩
  functions := rfl

/-- A new instance leaves all others alone. -/
theorem spares_addInstance (s : Store) (cls : ClassRef) : s.Spares (s.addInstance cls) where
  classes _ h := ⟨h, rfl⟩
  instances ref h := by
    obtain ⟨hlt, _⟩ := (s.grows_addInstance cls).instances ref h
    exact ⟨hlt, s.inst_addInstance cls h⟩
  functions := rfl

/-- Setting a field of an instance does not depend on what else there is. -/
theorem Spares.setField {s s' : Store} (h : s.Spares s') (ref : InstanceRef) (name : String)
    (value : Value) : (s.setField ref name value).Spares (s'.setField ref name value) where
  classes := h.classes
  instances other hlt := by
    rw [size_setField] at hlt
    obtain ⟨hlt', heq⟩ := h.instances other hlt
    refine ⟨by rwa [size_setField], ?_⟩
    rw [inst_setField, inst_setField]
    by_cases hother : other = ref
    · subst hother
      simp [hlt, hlt', heq]
    · simp [hother, heq]
  functions := h.functions

end Store

/-- Nothing there was is changed: the context is the same, and the store has only grown. -/
structure World.Spares (w w' : World) : Prop where
  context : w'.context = w.context
  store : w.store.Spares w'.store

theorem World.Spares.rfl {w : World} : w.Spares w := ⟨Eq.refl _, .rfl⟩

/-- A world that is left alone twice is left alone. -/
theorem World.Spares.trans {a b c : World} (h : a.Spares b) (h' : b.Spares c) : a.Spares c where
  context := h'.context.trans h.context
  store := h.store.trans h'.store

/-! ## one change -/

/-- Binds a name in a scope. -/
def Scope.bind (scope : Scope) (name : String) (value : Located) : Scope :=
  { scope with vars := scope.vars.insert name value }

/-- The contexts differ in one variable of one of the alive scopes at most: it is bound to
another value there, or bound for the first time. -/
structure Context.BindsOne (level : Nat) (name : String) (value : Located) (c c' : Context) :
    Prop where
  scopes : c'.scopes = c.scopes.modify level (·.bind name value)
  calls : c'.calls = c.calls
  policy : c'.policy = c.policy
  counter : c'.counter = c.counter

/-- At most one variable of one scope or one field of one instance is changed. -/
inductive World.ChangesAtMostOne (w w' : World) : Prop where
  | nothing (h : w.Spares w')
  | bound (level : Nat) (name : String) (value : Located)
      (context : w.context.BindsOne level name value w'.context) (store : w.store.Spares w'.store)
  | field (ref : InstanceRef) (name : String) (value : Value) (context : w'.context = w.context)
      (store : (w.store.setField ref name value).Spares w'.store)

/-- A change that comes after nothing was changed is one change altogether. -/
theorem World.Spares.andThen {w w' w'' : World} (h : w.Spares w')
    (h' : w'.ChangesAtMostOne w'') : w.ChangesAtMostOne w'' := by
  cases h' with
  | nothing h' => exact .nothing (h.trans h')
  | bound level name value context store =>
      exact .bound level name value (h.context ▸ context) (h.store.trans store)
  | field ref name value context store =>
      exact .field ref name value (context.trans h.context)
        ((h.store.setField ref name value).trans store)

namespace Context

/-- The first scope that binds the name is the one changed. -/
theorem replaceFirst_eq_modify (name : String) (value : Located) (scopes : List Scope) :
    replaceFirst name value scopes =
      scopes.modify (scopes.findIdx (·.vars.contains name)) (·.bind name value) := by
  induction scopes with
  | nil => rfl
  | cons scope outer ih =>
      rw [replaceFirst, List.findIdx_cons]
      cases scope.vars.contains name <;> simp [ih, Scope.bind]

/-- A declaration binds one name in the current scope. -/
theorem bindsOne_declare (c : Context) (name : String) (value : Located) :
    c.BindsOne 0 name value (c.declare name value) where
  scopes := by
    rw [scopes_declare, scopes_eq_cons]
    rfl
  calls := (c.sameAlive_declare name value).2
  policy := c.policy_declare name value
  counter := c.counter_declare name value

/-- An assignment binds one name in the scope where a look-up finds it. -/
theorem Assigned.bindsOne {c c' : Context} {name : String} {value : Located}
    (h : c.Assigned name value c') : c.BindsOne (c.level name) name value c' where
  scopes := by
    rw [h.scopes, replaceFirst_eq_modify]
    rfl
  calls := h.calls
  policy := h.policy
  counter := h.counter

end Context

/-! ## computations that change little -/

section Computations

variable {α β : Type} {fns : Array Function} {deep : Prop} {R : World → World → Prop}

/-- What a computation leaves behind: a related world if it succeeds, and the same world but
for what is new if it fails.  Its calls are too deep only if they can be. -/
inductive Left (deep : Prop) (R : World → World → Prop) (w w' : World) : Ending → Prop where
  | done (h : R w w') : Left deep R w w' .done
  | failed (e : RuntimeError) (h : w.Spares w') : Left deep R w w' (.failed e)
  | tooDeep (h : deep) : Left deep R w w' .tooDeep

/-- That is what the computation leaves behind wherever these functions exist. -/
def Leaves (fns : Array Function) (deep : Prop) (R : World → World → Prop) (x : Exec α) : Prop :=
  ∀ m : Machine, m.world.store.functions = fns →
    Left deep R m.world (x.final m).world (x.ending m)

/-- Whatever the outcome, all that was there is unchanged. -/
theorem Left.spares {w w' : World} {outcome : Except RuntimeError α}
    (h : Left deep World.Spares w w' (.ofOutcome outcome)) : w.Spares w' := by
  cases outcome with
  | ok a =>
      cases h with
      | done h => exact h
  | error e =>
      cases h with
      | failed e h => exact h

/-- A computation is only cut off where calls can be too deep. -/
theorem Left.deep_of_stop {w w' : World} {stop : Stop} (h : Left deep R w w' stop.ending)
    (hs : ¬ stop.ending.Settled) : stop.ending = .tooDeep ∧ deep := by
  generalize stop.ending = ending at h hs
  cases h with
  | done | failed => exact absurd trivial hs
  | tooDeep h => exact ⟨rfl, h⟩

/-- Where calls cannot be too deep, none is. -/
theorem Left.not_tooDeep {w w' : World} {ending : Ending} (h : Left deep R w w' ending)
    (hdeep : ¬ deep) : ending ≠ .tooDeep := by
  cases h with
  | done | failed => nofun
  | tooDeep h => exact absurd h hdeep

/-- To allow deeper calls weakens what is said. -/
theorem Leaves.mono {deep' : Prop} {x : Exec α} (hx : Leaves fns deep R x)
    (h : deep → deep') : Leaves fns deep' R x := by
  intro m hm
  have hleft := hx m hm
  generalize x.ending m = ending at hleft
  cases hleft with
  | done hR => exact .done hR
  | failed e hspares => exact .failed e hspares
  | tooDeep hdeep => exact .tooDeep (h hdeep)

/-- An answer changes nothing. -/
theorem leaves_pure (hR : ∀ w, R w w) (a : α) : Leaves fns deep R (pure a : Exec α) := by
  intro m _
  exact .done (hR m.world)

theorem leaves_throw (e : RuntimeError) : Leaves fns deep R (throw (.error e) : Exec α) := by
  intro m _
  exact .failed e .rfl

theorem leaves_fail (location : Location) (cause : Cause) (infos : List Info) :
    Leaves fns deep R (Exec.fail location cause infos : Exec α) := by
  intro m _
  exact .failed _ .rfl

/-- An event leaves behind what it changes. -/
theorem leaves_emit {event : Event} (h : ∀ w, R w (w.after event)) :
    Leaves fns deep R (Exec.emit event) := by
  intro m _
  exact .done (h m.world)

/-- To go on from the store, it is enough to know its functions. -/
theorem leaves_store_bind {f : Store → Exec β}
    (hf : ∀ s : Store, s.functions = fns → Leaves fns deep R (f s)) :
    Leaves fns deep R (Exec.store >>= f) := by
  intro m hm
  exact hf m.world.store hm m hm

/-- To go on from the context does not change it. -/
theorem leaves_context_bind {f : Context → Exec β} (hf : ∀ c, Leaves fns deep R (f c)) :
    Leaves fns deep R (Exec.context >>= f) := by
  intro m hm
  exact hf m.world.context m hm

theorem leaves_get_bind {f : Machine → Exec β} (hf : ∀ m, Leaves fns deep R (f m)) :
    Leaves fns deep R (get >>= f) := by
  intro m hm
  exact hf m m hm

/-- What is done before the last change must change nothing, and then it does not matter
where it fails. -/
theorem Leaves.bind {x : Exec α} {f : α → Exec β} (hx : Leaves fns deep World.Spares x)
    (hR : ∀ {w w' w'' : World}, w.Spares w' → R w' w'' → R w w'')
    (hf : ∀ a, Leaves fns deep R (f a)) : Leaves fns deep R (x >>= f) := by
  intro m hm
  have hfirst := hx m hm
  cases hrun : x m with
  | ok a m' =>
      rw [Exec.ending_of_ok hrun, Exec.final_of_ok hrun] at hfirst
      have hsame : (x >>= f) m = f a m' := by rw [Exec.bind_run, hrun]
      rw [Exec.ending_of_run hsame, Exec.final_of_run hsame]
      cases hfirst with
      | done hspares =>
          have hsecond := hf a m' (hspares.store.functions.trans hm)
          generalize (f a).ending m' = ending at hsecond
          cases hsecond with
          | done h => exact .done (hR hspares h)
          | failed e h => exact .failed e (hspares.trans h)
          | tooDeep h => exact .tooDeep h
  | error stop m' =>
      rw [Exec.ending_of_error hrun, Exec.final_of_error hrun] at hfirst
      have hsame : (x >>= f) m = .error stop m' := by rw [Exec.bind_run, hrun]
      rw [Exec.ending_of_error hsame, Exec.final_of_error hsame]
      cases stop with
      | error e =>
          cases hfirst with
          | failed e h => exact .failed e h
      | blockExit => cases hfirst
      | tooDeep =>
          cases hfirst with
          | tooDeep h => exact .tooDeep h

/-- Answering something else changes nothing. -/
theorem Leaves.bind_pure {x : Exec α} (hx : Leaves fns deep R x) (b : β) :
    Leaves fns deep R (do let _ ← x; return b) := by
  intro m hm
  have hleft := hx m hm
  have hbind := Exec.bind_run x (fun _ => (pure b : Exec β)) m
  cases hrun : x m with
  | ok a m' =>
      rw [hrun] at hbind
      rw [Exec.ending_of_ok hrun, Exec.final_of_ok hrun] at hleft
      rwa [Exec.ending_of_ok hbind, Exec.final_of_ok hbind]
  | error stop m' =>
      rw [hrun] at hbind
      rw [Exec.ending_of_error hrun, Exec.final_of_error hrun] at hleft
      rwa [Exec.ending_of_error hbind, Exec.final_of_error hbind]

/-- An outcome that is kept leaves the same behind. -/
theorem Leaves.settle {x : Exec α} (hx : Leaves fns deep World.Spares x) :
    Leaves fns deep World.Spares (Exec.settle x) := by
  intro m hm
  have hleft := hx m hm
  obtain ⟨outcome, hrun, hend⟩ | ⟨stop, hrun, hend, hs⟩ := Exec.settle_cases x m
  · rw [hend] at hleft
    rw [Exec.ending_of_ok hrun, Exec.final_of_ok hrun]
    exact .done hleft.spares
  · rw [hend] at hleft hs
    obtain ⟨htoo, hdeep⟩ := hleft.deep_of_stop hs
    rw [Exec.ending_of_error hrun, htoo]
    exact .tooDeep hdeep

/-- A call takes back the entry that it has made. -/
theorem Leaves.inCall {x : Exec α} (hx : Leaves fns deep World.Spares x) (entry : CallEntry)
    (args : Nat) : Leaves fns deep World.Spares (Exec.inCall entry args x) := by
  intro m hm
  have hleft := hx (m.after (.callEntered entry args)) hm
  obtain ⟨outcome, hend, hrun⟩ | ⟨stop, hend, hs, hrun⟩ := Exec.inCall_cases entry args x m
  · rw [hend] at hleft
    have hinner := hleft.spares
    -- leaving the call takes away what entering it has added
    have hspares : m.world.Spares
        ((x.final (m.after (.callEntered entry args))).after .callLeft).world :=
      ⟨congrArg Context.leaveCall hinner.context, hinner.store⟩
    rw [Exec.ending_of_run hrun, Exec.final_of_run hrun, Exec.ending_resume, Exec.final_resume]
    cases outcome with
    | ok a => exact .done hspares
    | error e => exact .failed e hspares
  · rw [hend] at hleft
    obtain ⟨htoo, hdeep⟩ := hleft.deep_of_stop hs
    rw [Exec.ending_of_error hrun, htoo]
    exact .tooDeep hdeep

/-! ## expressions -/

/-- Computations that leave everything alone do so one after the other. -/
theorem sequential_leaves : Sequential (Leaves fns deep World.Spares) where
  pure := leaves_pure fun _ => .rfl
  fail location cause infos _ := leaves_fail location cause infos
  context _ _ := .done .rfl
  bind hx hf := hx.bind World.Spares.trans hf

/-- All that evaluating does by itself leaves everything alone. -/
theorem acting_leaves : Acting (Leaves fns deep World.Spares) where
  toSequential := sequential_leaves
  raise := leaves_throw
  store _ _ := .done .rfl
  act {event} h := leaves_emit fun w => by
    cases event with
    | instantiated cls name => exact ⟨rfl, w.store.spares_addInstance cls⟩
    | fieldMissed | fallbackUsed => exact .rfl
    | clockRead => exact ⟨rfl, fun _ h => ⟨h, rfl⟩, fun _ h => ⟨h, rfl⟩, rfl⟩
    | _ => exact h.elim

variable {call : Caller}

/-! ## functions -/

/-- A function that keeps its hands off changes nothing if the functions it may call do
not. -/
theorem Action.leaves_perform {calls : Bool} (clock : Nat → Reading)
    (hcall : calls = true →
      ∀ site ref args, Leaves fns deep World.Spares (call site ref args))
    (action : Action) (h : action.HandsOff calls) :
    Leaves fns deep World.Spares (action.perform clock call) := by
  induction action with
  | answer value => exact sequential_leaves.pure value
  | raise e => exact leaves_throw e
  | fail location cause => exact leaves_fail _ _ _
  | malformed site error fallback => exact acting_leaves.malformed site error fallback
  | run | setField => exact h.elim
  | eval expr next ih =>
      obtain ⟨hcalls, hnext⟩ := h
      have heval := expr.has_eval (acting_leaves.evaluative (hcall hcalls))
      exact sequential_leaves.bind heval.settle fun outcome => ih _ (hnext outcome)
  | call site fn args next ih =>
      obtain ⟨hcalls, hnext⟩ := h
      refine sequential_leaves.bind (hcall hcalls site fn args).settle fun outcome => ?_
      exact ih _ (hnext outcome)
  | look next ih => exact leaves_get_bind fun m => ih _ (h _)
  | readClock next ih =>
      exact sequential_leaves.bind (acting_leaves.readClock clock) fun reading => ih _ (h reading)

/-- Calls of functions that keep their hands off change nothing, and if these functions call
nothing in turn, no call is too deep that is allowed at all. -/
theorem Host.HandsOff.leaves_call {h : Host} {calls : Bool} {s : Store}
    (hh : h.HandsOff calls s) (depth : Nat) (site : Location) (ref : FunctionRef)
    (args : List Located) :
    Leaves s.functions (calls = true ∨ depth = 0) World.Spares (h.call depth site ref args) := by
  induction depth generalizing site ref args with
  | zero => exact fun _ _ => .tooDeep (.inr rfl)
  | succ depth ih =>
      refine leaves_store_bind fun s' hs => Leaves.inCall ?_ _ _
      rw [Store.fn_of_functions hs]
      exact Action.leaves_perform h.clock
        (fun hcalls site ref args => (ih site ref args).mono fun _ => .inl hcalls) _
        (hh ref ⟨site, args⟩)

/-! ## simple instructions -/

/-- An instruction without a block. -/
def Instr.IsSimple : Instr → Prop
  | .declare _ _ _ | .assign _ _ _ | .setField _ _ _ _ | .classDecl _ _ | .eval _ _ => True
  | .ifThen _ _ _ | .ifElse _ _ _ _ => False

/-- A declaration is one change. -/
theorem changesAtMostOne_declared (name : String) (value : Located) (w : World) :
    w.ChangesAtMostOne (w.after (.declared name value)) :=
  .bound 0 name value (w.context.bindsOne_declare name value) .rfl

/-- An assignment is one change, or none. -/
theorem changesAtMostOne_assigned (name : String) (value : Located) (w : World) :
    w.ChangesAtMostOne (w.after (.assigned name value)) := by
  obtain ⟨c', hassigned, hafter⟩ | ⟨_, hafter⟩ := w.after_assigned name value
  · rw [hafter]
    exact .bound _ name value hassigned.bindsOne .rfl
  · rw [hafter]
    exact .nothing .rfl

theorem leaves_assignVariable (name : Name) (value : Located) :
    Leaves fns deep World.ChangesAtMostOne (assignVariable name value) := by
  refine leaves_context_bind fun c => ?_
  split
  · exact leaves_emit (changesAtMostOne_assigned _ _)
  · exact leaves_fail _ _ _
  · exact leaves_fail _ _ _

/-- All that can go wrong comes before the field is set. -/
theorem leaves_writeField (target : Value) (range : Range) (field : Name) (value : Value) :
    Leaves fns deep World.ChangesAtMostOne (writeField target range field value) := by
  have htarget : Leaves fns deep World.Spares (expectInstance target range) :=
    sequential_leaves.expectInstance target range
  refine htarget.bind World.Spares.andThen fun ref => ?_
  exact leaves_emit fun _ => .field ref field.text value rfl .rfl

theorem leaves_declareClass (name : Name) :
    Leaves fns deep World.ChangesAtMostOne (declareClass name) := by
  have hnext : Leaves fns deep World.Spares Exec.nextClass :=
    leaves_store_bind fun _ _ => sequential_leaves.pure _
  have hcreate : Leaves fns deep World.Spares (Exec.emit (.classCreated ⟨name.text, name.range⟩)) :=
    leaves_emit fun w => ⟨rfl, w.store.spares_addClass _⟩
  refine hnext.bind World.Spares.andThen fun _ => ?_
  refine hcreate.bind World.Spares.andThen fun _ => ?_
  exact leaves_emit (changesAtMostOne_declared _ _)

/-- The last thing that a simple instruction does is the one change it makes. -/
theorem Instr.leaves_run
    (hcall : ∀ site ref args, Leaves fns deep World.Spares (call site ref args)) {instr : Instr}
    (h : instr.IsSimple) : Leaves fns deep World.ChangesAtMostOne (instr.run call) := by
  have heval (e : Expr) : Leaves fns deep World.Spares (e.eval call) :=
    e.has_eval (acting_leaves.evaluative hcall)
  cases instr with
  | declare range name init =>
      rw [Instr.run]
      refine (heval init).bind World.Spares.andThen fun _ => ?_
      exact (leaves_emit (changesAtMostOne_declared _ _)).bind_pure _
  | assign range name expr =>
      rw [Instr.run]
      refine (heval expr).bind World.Spares.andThen fun _ => ?_
      exact (leaves_assignVariable name _).bind_pure _
  | setField range target field expr =>
      rw [Instr.run]
      refine (heval target).bind World.Spares.andThen fun _ => ?_
      refine (heval expr).bind World.Spares.andThen fun _ => ?_
      exact (leaves_writeField _ _ field _).bind_pure _
  | classDecl range name =>
      rw [Instr.run]
      exact (leaves_declareClass name).bind_pure _
  | ifThen | ifElse => exact h.elim
  | eval range expr =>
      rw [Instr.run]
      exact (heval expr).bind World.Spares.andThen fun _ => leaves_pure (fun _ => .nothing .rfl) _

end Computations

/-! ## expressions are pure, failures atomic -/

/-- What a computation leaves behind, read off its result. -/
theorem Leaves.left_result {α : Type} {deep : Prop} {R : World → World → Prop} {x : Exec α}
    {w : World} (hx : Leaves w.store.functions deep R x) :
    Left deep R w (x.result w).2 (x.ending ⟨w, []⟩) := by
  have hleft := hx ⟨w, []⟩ rfl
  rwa [Exec.world_final] at hleft

/-- Where functions keep their hands off, expressions are pure: succeeding or failing, they
leave the context and every class, function and instance as they were.  Simple instructions
that fail do so as well, and one that succeeds changes at most one variable or one field.
Nothing of it stops at the exit of a block, and if functions call nothing, as those of the
language's own library, nothing is too deep either. -/
theorem Host.HandsOff.pure_and_atomic {h : Host} {calls : Bool} {w : World}
    (hh : h.HandsOff calls w.store) (depth : Nat) :
    (∀ expr : Expr,
      let x := h.eval depth expr
      x.ending ⟨w, []⟩ ≠ .blockExit ∧
        (x.ending ⟨w, []⟩ ≠ .tooDeep → w.Spares (x.result w).2)) ∧
      (∀ instr : Instr, instr.IsSimple →
        let x := instr.run (h.call depth)
        x.ending ⟨w, []⟩ ≠ .blockExit ∧
          (∀ e, x.ending ⟨w, []⟩ = .failed e → w.Spares (x.result w).2) ∧
          (x.ending ⟨w, []⟩ = .done → w.ChangesAtMostOne (x.result w).2)) ∧
      (calls = false → depth ≠ 0 →
        (∀ expr, (h.eval depth expr).ending ⟨w, []⟩ ≠ .tooDeep) ∧
          ∀ instr : Instr, instr.IsSimple → (instr.run (h.call depth)).ending ⟨w, []⟩ ≠ .tooDeep) := by
  have hcall := hh.leaves_call depth
  have heval (expr : Expr) := (expr.has_eval (acting_leaves.evaluative hcall)).left_result
  have hrun (instr : Instr) (hs : instr.IsSimple) := (Instr.leaves_run hcall hs).left_result
  refine ⟨?_, ?_, fun hcalls hdepth => ⟨fun expr => ?_, fun instr hs => ?_⟩⟩
  · intro expr x
    have hleft : Left _ World.Spares w (x.result w).2 (x.ending ⟨w, []⟩) := heval expr
    generalize x.ending ⟨w, []⟩ = ending at hleft
    cases hleft with
    | done hspares => exact ⟨nofun, fun _ => hspares⟩
    | failed e hspares => exact ⟨nofun, fun _ => hspares⟩
    | tooDeep _ => exact ⟨nofun, fun hne => absurd rfl hne⟩
  · intro instr hs x
    have hleft : Left _ World.ChangesAtMostOne w (x.result w).2 (x.ending ⟨w, []⟩) := hrun instr hs
    generalize x.ending ⟨w, []⟩ = ending at hleft
    cases hleft with
    | done hone => exact ⟨nofun, nofun, fun _ => hone⟩
    | failed e hspares => exact ⟨nofun, fun _ _ => hspares, nofun⟩
    | tooDeep _ => exact ⟨nofun, nofun, nofun⟩
  · exact (heval expr).not_tooDeep (by simp [hcalls, hdepth])
  · exact (hrun instr hs).not_tooDeep (by simp [hcalls, hdepth])

/-- Sets a field of a new instance. -/
def setsField (value : Expr) : Instr :=
  .setField .synthetic
    (.call .synthetic (.variable .synthetic ⟨.synthetic, "A"⟩) .synthetic []) ⟨.synthetic, "f"⟩
    value

/-- A fresh context in which a class was declared. -/
def worldWithClass : World :=
  ((failingHost.run 1 [.classDecl .synthetic ⟨.synthetic, "A"⟩]).result (worldWith [])).2

/-- With the language's own library, a field is not set to a variable that is not there; the
instance was made in vain.  Set to what `hasField` answers, it is. -/
theorem pure_and_atomic_setsField :
    let missing := (setsField (.variable .synthetic ⟨.synthetic, "y"⟩)).run (failingHost.call 1)
    let asked := (setsField <| .call .synthetic (.variable .synthetic ⟨.synthetic, "hasField"⟩)
      .synthetic instanceAndField).run (failingHost.call 1)
    (∃ e, missing.ending ⟨worldWithClass, []⟩ = .failed e) ∧
      worldWithClass.Spares (missing.result worldWithClass).2 ∧
      asked.ending ⟨worldWithClass, []⟩ = .done ∧
      worldWithClass.ChangesAtMostOne (asked.result worldWithClass).2 := by
  intro missing asked
  have hown : worldWithClass.store.OwnOnly := by decide +kernel
  have hpure := (hown.handsOff failingHost false).pure_and_atomic 1
  have hmissing : missing.ending ⟨worldWithClass, []⟩ =
      .failed ⟨.source .synthetic, .undefinedVariable "y", [], []⟩ := by decide +kernel
  have hasked : asked.ending ⟨worldWithClass, []⟩ = .done := by decide +kernel
  exact ⟨⟨_, hmissing⟩, (hpure.2.1 (setsField _) trivial).2.1 _ hmissing, hasked,
    (hpure.2.1 (setsField _) trivial).2.2 hasked⟩

end FieldScript
