import FieldScript.Proofs.Trace

/-!
# FieldScript.Proofs.Traced

Computations that have a trace.

A computation is `Traced` if wherever it starts, the events it adds to the journal
and the way it ends are those of a trace (`FieldScript.Proofs.Trace`).  Each way to
put computations together keeps this: one after the other (`Traced.bind`), going on
with an outcome (`Traced.settle_bind`), and running within a block, a call or a
program (`traced_inBlock`, `traced_inCall`, `traced_program`).

A trace is made for the functions that exist where it starts.  No event of a trace
makes a function, so they are still the ones there are when the next computation
starts.
-/

namespace FieldScript

/-! ## how computations end -/

/-- The ending that stopping for this reason is. -/
def Stop.ending : Stop → Ending
  | .error e => .failed e
  | .blockExit => .blockExit
  | .tooDeep => .tooDeep

/-- The ending that an outcome stands for. -/
def Ending.ofOutcome {α : Type} : Except RuntimeError α → Ending
  | .ok _ => .done
  | .error e => .failed e

/-- An outcome, be it a value or an error, is a settled ending. -/
theorem Ending.settled_ofOutcome {α : Type} (outcome : Except RuntimeError α) :
    (Ending.ofOutcome outcome).Settled := by
  cases outcome <;> trivial

namespace Exec

variable {α : Type}

/-- How a computation ends that starts on a machine. -/
def ending (x : Exec α) (m : Machine) : Ending :=
  match x m with
  | .ok _ _ => .done
  | .error stop _ => stop.ending

/-- The machine on which a computation ends. -/
def final (x : Exec α) (m : Machine) : Machine :=
  match x m with
  | .ok _ m' | .error _ m' => m'

/-- The events of a computation that starts in a world, latest first. -/
def journal (x : Exec α) (w : World) : List Event := (x.final ⟨w, []⟩).journal

/-- A computation that gives an answer is done. -/
theorem ending_of_ok {x : Exec α} {m m' : Machine} {a : α} (h : x m = .ok a m') :
    x.ending m = .done := by
  rw [ending, h]

/-- A computation that stops ends as the stop says. -/
theorem ending_of_error {x : Exec α} {m m' : Machine} {stop : Stop} (h : x m = .error stop m') :
    x.ending m = stop.ending := by
  rw [ending, h]

/-- Where a computation gives an answer, that is the last machine. -/
theorem final_of_ok {x : Exec α} {m m' : Machine} {a : α} (h : x m = .ok a m') :
    x.final m = m' := by
  rw [final, h]

/-- Where a computation stops, that is the last machine. -/
theorem final_of_error {x : Exec α} {m m' : Machine} {stop : Stop} (h : x m = .error stop m') :
    x.final m = m' := by
  rw [final, h]

/-- One computation goes on as another does that starts elsewhere. -/
theorem ending_of_run {x y : Exec α} {m m' : Machine} (h : x m = y m') :
    x.ending m = y.ending m' := by
  rw [ending, ending, h]

/-- Computations with the same result end on the same machine. -/
theorem final_of_run {x y : Exec α} {m m' : Machine} (h : x m = y m') :
    x.final m = y.final m' := by
  rw [final, final, h]

/-- Going on with an outcome ends as the outcome does. -/
theorem ending_resume (outcome : Except RuntimeError α) (m : Machine) :
    (resume outcome).ending m = .ofOutcome outcome := by
  cases outcome <;> rfl

/-- Going on with an outcome changes nothing. -/
theorem final_resume (outcome : Except RuntimeError α) (m : Machine) :
    (resume outcome).final m = m := by
  cases outcome <;> rfl

/-- A computation settles with an outcome, or it stops and so does whatever waits
for its outcome. -/
theorem settle_cases (x : Exec α) (m : Machine) :
    (∃ outcome, settle x m = .ok outcome (x.final m) ∧ x.ending m = .ofOutcome outcome) ∨
      ∃ stop, settle x m = .error stop (x.final m) ∧ x.ending m = stop.ending ∧
        ¬ (x.ending m).Settled := by
  rw [settle_run]
  cases hrun : x m with
  | ok a m' => exact .inl ⟨.ok a, by simp [final, hrun], by simp [ending, hrun, Ending.ofOutcome]⟩
  | error stop m' =>
      cases stop with
      | error e =>
          exact .inl ⟨.error e, by simp [final, hrun],
            by simp [ending, hrun, Stop.ending, Ending.ofOutcome]⟩
      | blockExit =>
          exact .inr ⟨.blockExit, by simp [final, hrun], by simp [ending, hrun],
            by simp [ending, hrun, Stop.ending, Ending.Settled]⟩
      | tooDeep =>
          exact .inr ⟨.tooDeep, by simp [final, hrun], by simp [ending, hrun],
            by simp [ending, hrun, Stop.ending, Ending.Settled]⟩

/-- How a computation goes that runs in the scope of a new block. -/
theorem inBlock_cases (x : Exec α) (m : Machine) :
    let start := m.after .blockEntered
    (∃ outcome, x.ending start = .ofOutcome outcome ∧
        (x.final start).world.context.blocks ≠ [] ∧
        inBlock x m = resume outcome ((x.final start).after .blockLeft)) ∨
      (∃ outcome, x.ending start = .ofOutcome (α := α) outcome ∧
        (x.final start).world.context.blocks = [] ∧
        inBlock x m = .error .blockExit (x.final start)) ∨
      ∃ stop, x.ending start = stop.ending ∧ ¬ stop.ending.Settled ∧
        inBlock x m = .error stop (x.final start) := by
  intro start
  obtain ⟨outcome, hrun, hend⟩ | ⟨stop, hrun, hend, hs⟩ := settle_cases x start
  · by_cases hb : (x.final start).world.context.blocks = []
    · refine .inr (.inl ⟨outcome, hend, hb, ?_⟩)
      simp [inBlock, bind_run, start, hrun, leaveBlock_run_of_nil hb]
    · refine .inl ⟨outcome, hend, hb, ?_⟩
      simp [inBlock, bind_run, start, hrun, leaveBlock_run_of_ne_nil hb]
  · refine .inr (.inr ⟨stop, hend, hend ▸ hs, ?_⟩)
    simp [inBlock, bind_run, start, hrun]

/-- How a computation goes that runs as the call of a function. -/
theorem inCall_cases (entry : CallEntry) (args : Nat) (x : Exec α) (m : Machine) :
    let start := m.after (.callEntered entry args)
    (∃ outcome, x.ending start = .ofOutcome outcome ∧
        inCall entry args x m = resume outcome ((x.final start).after .callLeft)) ∨
      ∃ stop, x.ending start = stop.ending ∧ ¬ stop.ending.Settled ∧
        inCall entry args x m = .error stop (x.final start) := by
  intro start
  obtain ⟨outcome, hrun, hend⟩ | ⟨stop, hrun, hend, hs⟩ := settle_cases x start
  · refine .inl ⟨outcome, hend, ?_⟩
    simp [inCall, bind_run, start, hrun]
  · refine .inr ⟨stop, hend, hend ▸ hs, ?_⟩
    simp [inCall, bind_run, start, hrun]

end Exec

/-! ## putting computations together -/

section Combinators

variable {α β : Type} {p : Powers} {fns : Array Function}

/-- One machine leads to another through events that have a trace. -/
def Leads (p : Powers) (m : Machine) (ending : Ending) (m' : Machine) : Prop :=
  ∃ events, m' = ⟨m.world.afterAll events, events ++ m.journal⟩ ∧ Trace p m.world events ending

/-- A computation has a trace wherever these functions exist. -/
def Traced (p : Powers) (fns : Array Function) (x : Exec α) : Prop :=
  ∀ m : Machine, m.world.store.functions = fns → Leads p m (x.ending m) (x.final m)

/-- The events of a computation lead to the world in which it ends. -/
theorem Traced.trace {x : Exec α} {w : World} (hx : Traced p w.store.functions x) :
    Trace p w (x.journal w) (x.ending ⟨w, []⟩) ∧
      (x.final ⟨w, []⟩).world = w.afterAll (x.journal w) := by
  obtain ⟨events, hfinal, ht⟩ := hx ⟨w, []⟩ rfl
  have hjournal : x.journal w = events := by rw [Exec.journal, hfinal, List.append_nil]
  rw [hjournal, hfinal]
  exact ⟨ht, rfl⟩

/-- A trace makes no functions. -/
theorem Leads.functions {m m' : Machine} {ending : Ending} (h : Leads p m ending m') :
    m'.world.store.functions = m.world.store.functions := by
  obtain ⟨events, rfl, ht⟩ := h
  exact ht.functions

/-- A trace can follow on one that goes on. -/
theorem Leads.andThen {m m' m'' : Machine} {middle ending : Ending} (h : Leads p m middle m')
    (hgo : p.GoesOn middle) (h' : Leads p m' ending m'') : Leads p m ending m'' := by
  obtain ⟨first, rfl, ht⟩ := h
  obtain ⟨second, rfl, ht'⟩ := h'
  refine ⟨second ++ first, ?_, .andThen hgo ht ht'⟩
  rw [World.afterAll_append, List.append_assoc]

/-- Without events one stays where one is. -/
theorem leads_silent (m : Machine) {ending : Ending} (h : ending ≠ .blockExit) :
    Leads p m ending m :=
  ⟨[], rfl, .silent m.world h⟩

/-- An answer has no events. -/
theorem traced_pure (a : α) : Traced p fns (pure a : Exec α) := by
  intro m _
  exact leads_silent m nofun

/-- An error by itself has no events. -/
theorem traced_raise (e : RuntimeError) : Traced p fns (throw (.error e) : Exec α) := by
  intro m _
  exact leads_silent m nofun

theorem traced_tooDeep : Traced p fns (throw .tooDeep : Exec α) := by
  intro m _
  exact leads_silent m nofun

theorem traced_fail (location : Location) (cause : Cause) (infos : List Info) :
    Traced p fns (Exec.fail location cause infos : Exec α) := by
  intro m _
  exact leads_silent m nofun

/-- An effect is a trace by itself. -/
theorem traced_emit (event : Event) (h : event.IsEffect := by exact True.intro) :
    Traced p fns (Exec.emit event) := by
  intro m _
  exact ⟨[event], rfl, .effect m.world h⟩

theorem traced_nextClass : Traced p fns Exec.nextClass := by
  intro m _
  exact leads_silent m nofun

theorem traced_nextInstance : Traced p fns Exec.nextInstance := by
  intro m _
  exact leads_silent m nofun

/-- What a computation does with the store it finds. -/
theorem traced_store_bind {f : Store → Exec β}
    (hf : ∀ s : Store, s.functions = fns → Traced p fns (f s)) :
    Traced p fns (Exec.store >>= f) := by
  intro m hm
  exact hf m.world.store hm m hm

/-- To go on from the context, it is enough to be traced for each. -/
theorem traced_context_bind {f : Context → Exec β} (hf : ∀ c, Traced p fns (f c)) :
    Traced p fns (Exec.context >>= f) := by
  intro m hm
  exact hf m.world.context m hm

theorem traced_get_bind {f : Machine → Exec β} (hf : ∀ m, Traced p fns (f m)) :
    Traced p fns (get >>= f) := by
  intro m hm
  exact hf m m hm

/-- A result that another computation gives too is led to by the same trace. -/
theorem Leads.of_run {x y : Exec α} {m n m' : Machine}
    (h : Leads p m (y.ending m') (y.final m')) (hrun : x n = y m') :
    Leads p m (x.ending n) (x.final n) := by
  rwa [Exec.ending_of_run hrun, Exec.final_of_run hrun]

theorem Leads.of_stop {x : Exec α} {m m' n : Machine} {stop : Stop}
    (h : Leads p m stop.ending m') (hrun : x n = .error stop m') :
    Leads p m (x.ending n) (x.final n) := by
  rwa [Exec.ending_of_error hrun, Exec.final_of_error hrun]

/-- The same where the result is that of an outcome gone on with. -/
theorem Leads.of_outcome {x : Exec α} {m m' n : Machine} {outcome : Except RuntimeError α}
    (h : Leads p m (.ofOutcome outcome) m') (hrun : x n = Exec.resume outcome m') :
    Leads p m (x.ending n) (x.final n) := by
  rwa [Exec.ending_of_run hrun, Exec.final_of_run hrun, Exec.ending_resume, Exec.final_resume]

/-- Traced computations one after the other are traced. -/
theorem Traced.bind {x : Exec α} {f : α → Exec β} (hx : Traced p fns x)
    (hf : ∀ a, Traced p fns (f a)) : Traced p fns (x >>= f) := by
  intro m hm
  have hlead := hx m hm
  cases hrun : x m with
  | ok a m' =>
      rw [Exec.ending_of_ok hrun, Exec.final_of_ok hrun] at hlead
      have hsecond := hf a m' (hlead.functions.trans hm)
      exact (hlead.andThen trivial hsecond).of_run (by rw [Exec.bind_run, hrun])
  | error stop m' =>
      rw [Exec.ending_of_error hrun, Exec.final_of_error hrun] at hlead
      exact hlead.of_stop (by rw [Exec.bind_run, hrun])

/-- Going on with an outcome.  Where errors have to be passed on, an error is what
the computation goes on with. -/
theorem Traced.settle_bind {x : Exec α} {f : Except RuntimeError α → Exec β}
    (hx : Traced p fns x) (hf : ∀ outcome, Traced p fns (f outcome))
    (he : p.recovers = false → ∀ e, f (.error e) = throw (.error e)) :
    Traced p fns (Exec.settle x >>= f) := by
  intro m hm
  have hlead := hx m hm
  obtain ⟨outcome, hrun, hend⟩ | ⟨stop, hrun, hend, _⟩ := Exec.settle_cases x m
  · have hgoes : (Exec.settle x >>= f) m = f outcome (x.final m) := by rw [Exec.bind_run, hrun]
    rw [hend] at hlead
    by_cases hgo : p.GoesOn (.ofOutcome outcome)
    · have hsecond := hf outcome (x.final m) (hlead.functions.trans hm)
      exact (hlead.andThen hgo hsecond).of_run hgoes
    · -- only an error cannot be followed, and then it is what comes out
      cases outcome with
      | ok a => exact absurd trivial hgo
      | error e => exact hlead.of_stop (hgoes.trans (by rw [he (Bool.eq_false_iff.mpr hgo)]; rfl))
  · rw [hend] at hlead
    exact hlead.of_stop (by rw [Exec.bind_run, hrun])

/-! ## blocks, calls and programs -/

variable {x : Exec α}

/-- What leads to the end of something that an event begins, if nothing settles it. -/
theorem Leads.unsettled {m m' : Machine} {opening : Event} {activity : Activity}
    {ending : Ending} (ho : opening.begins? = some activity)
    (hp : activity = .program → p.runs = true) (hs : ¬ ending.Settled)
    (h : Leads p (m.after opening) ending m') : Leads p m ending m' := by
  obtain ⟨events, rfl, ht⟩ := h
  refine ⟨events ++ [opening], ?_, .unsettled ho hp hs ht⟩
  simp [World.afterAll_append, Machine.after]

/-- What happens between the start of an activity and its end is a bracket of the trace. -/
theorem Leads.bracket {m m' : Machine} {opening closing : Event} {activity : Activity}
    {ending : Ending} (ho : opening.begins? = some activity)
    (hp : activity = .program → p.runs = true) (h : Leads p (m.after opening) ending m')
    (hc : Closes m'.world.context activity ending closing) :
    Leads p m ending (m'.after closing) := by
  obtain ⟨events, rfl, ht⟩ := h
  refine ⟨closing :: (events ++ [opening]), ?_, .bracket ho hp ht hc⟩
  simp [World.afterAll_append, Machine.after]

/-- A block whose scope is gone cannot be left. -/
theorem Leads.gone {m m' : Machine} {ending : Ending} (hs : ending.Settled)
    (h : Leads p (m.after .blockEntered) ending m') (hc : m'.world.context.blocks = []) :
    Leads p m .blockExit m' := by
  obtain ⟨events, rfl, ht⟩ := h
  refine ⟨events ++ [.blockEntered], ?_, .gone hs ht hc⟩
  simp [World.afterAll_append, Machine.after]

/-- The start of an activity makes no functions. -/
theorem functions_opened {m : Machine} {opening : Event} {activity : Activity}
    (ho : opening.begins? = some activity) :
    (m.after opening).world.store.functions = m.world.store.functions := by
  cases opening <;> cases ho <;> rfl

/-- A block around a traced computation is traced; if its scope is gone, the exit stops. -/
theorem traced_inBlock (hx : Traced p fns x) : Traced p fns (Exec.inBlock x) := by
  intro m hm
  have hblock : Event.blockEntered.begins? = some .block := rfl
  have hbody := hx (m.after .blockEntered) ((functions_opened hblock).trans hm)
  obtain ⟨outcome, hend, hb, hrun⟩ | ⟨outcome, hend, hb, hrun⟩ | ⟨stop, hend, hs, hrun⟩ :=
    Exec.inBlock_cases x m
  · rw [hend] at hbody
    have hs := Ending.settled_ofOutcome outcome
    exact (hbody.bracket hblock nofun (.left hs hb)).of_outcome hrun
  · rw [hend] at hbody
    have hs := Ending.settled_ofOutcome outcome
    exact (hbody.gone hs hb).of_stop hrun
  · rw [hend] at hbody
    exact (hbody.unsettled hblock nofun hs).of_stop hrun

/-- A call around a traced computation is traced. -/
theorem traced_inCall (entry : CallEntry) (args : Nat) (hx : Traced p fns x) :
    Traced p fns (Exec.inCall entry args x) := by
  intro m hm
  have hcall : (Event.callEntered entry args).begins? = some (.call entry) := rfl
  have hbody := hx (m.after (.callEntered entry args)) ((functions_opened hcall).trans hm)
  obtain ⟨outcome, hend, hrun⟩ | ⟨stop, hend, hs, hrun⟩ := Exec.inCall_cases entry args x m
  · rw [hend] at hbody
    have hs := Ending.settled_ofOutcome outcome
    exact (hbody.bracket hcall nofun (.returned entry hs)).of_outcome hrun
  · rw [hend] at hbody
    exact (hbody.unsettled hcall nofun hs).of_stop hrun

/-- How a program goes on from the start of its instructions. -/
theorem Program.run_cases (call : Caller) (program : Program) (m : Machine) :
    let start := m.after (.programStarted program.length)
    let body := Instr.runList call none program
    (∃ value, body.ending start = .done ∧
        program.run call m = .ok value ((body.final start).after .programCompleted)) ∨
      (∃ e, body.ending start = .failed e ∧
        program.run call m = .error (.error e) ((body.final start).after (.programAborted e))) ∨
      ∃ stop, body.ending start = stop.ending ∧ ¬ stop.ending.Settled ∧
        program.run call m = .error stop (body.final start) := by
  intro start body
  obtain ⟨outcome, hrun, hend⟩ | ⟨stop, hrun, hend, hs⟩ := Exec.settle_cases body start
  · cases outcome with
    | ok value =>
        refine .inl ⟨value, hend, ?_⟩
        simp [Program.run, Exec.bind_run, start, body, hrun, -bind_pure_comp]
    | error e =>
        refine .inr (.inl ⟨e, hend, ?_⟩)
        simp [Program.run, Exec.bind_run, start, body, hrun]
  · refine .inr (.inr ⟨stop, hend, hend ▸ hs, ?_⟩)
    simp [Program.run, Exec.bind_run, start, body, hrun]

/-- A program ends as its instructions do. -/
theorem Program.ending_run (call : Caller) (program : Program) (m : Machine) :
    (program.run call).ending m =
      (Instr.runList call none program).ending (m.after (.programStarted program.length)) := by
  obtain ⟨value, hend, hrun⟩ | ⟨e, hend, hrun⟩ | ⟨stop, hend, _, hrun⟩ :=
    Program.run_cases call program m
  · rw [hend, Exec.ending_of_ok hrun]
  · rw [hend, Exec.ending_of_error hrun, Stop.ending]
  · rw [hend, Exec.ending_of_error hrun]

/-- A program that fails drops what its instructions have left. -/
theorem Program.final_run_of_failed {call : Caller} {program : Program} {m : Machine}
    {e : RuntimeError} (h : (program.run call).ending m = .failed e) :
    (program.run call).final m =
      ((Instr.runList call none program).final
        (m.after (.programStarted program.length))).after (.programAborted e) := by
  obtain ⟨value, hend, hrun⟩ | ⟨e', hend, hrun⟩ | ⟨stop, hend, hs, hrun⟩ :=
    Program.run_cases call program m
  · rw [Exec.ending_of_ok hrun] at h
    cases h
  · rw [Exec.ending_of_error hrun] at h
    cases h
    rw [Exec.final_of_error hrun]
  · rw [Exec.ending_of_error hrun] at h
    rw [h] at hs
    exact absurd trivial hs

/-- A program has a trace where functions may run programs. -/
theorem traced_program (hp : p.runs = true) (call : Caller) (program : Program)
    (hx : Traced p fns (Instr.runList call none program)) :
    Traced p fns (program.run call) := by
  intro m hm
  have hstart : (Event.programStarted program.length).begins? = some .program := rfl
  have hbody := hx (m.after (.programStarted program.length))
    ((functions_opened hstart).trans hm)
  obtain ⟨value, hend, hrun⟩ | ⟨e, hend, hrun⟩ | ⟨stop, hend, hs, hrun⟩ :=
    Program.run_cases call program m
  · rw [hend] at hbody
    exact (hbody.bracket hstart (fun _ => hp) .completed).of_run (y := pure value) hrun
  · rw [hend] at hbody
    exact (hbody.bracket hstart (fun _ => hp) (.aborted e)).of_run (y := throw (.error e)) hrun
  · rw [hend] at hbody
    exact (hbody.unsettled hstart (fun _ => hp) hs).of_stop hrun

end Combinators

end FieldScript
