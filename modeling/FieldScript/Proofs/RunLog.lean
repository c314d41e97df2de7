import FieldScript.Proofs.MissedRead
import FieldScript.Proofs.Sessions

/-!
# FieldScript.Proofs.RunLog

The log as a nest of runs.

Whatever programs, scripts and functions do, each run that begins is over before the one
around it is, with the event that its result calls for; only where a run cannot go on are
those in progress left open.  `Told` says so of the events of a computation: a stretch of them
from the start of a run to its end is what that run does, and the closing event is the one of
how it ends.  Everything that a host does is told in this way (`Host.tells_call`,
`Host.tells_run`), and so is every request (`Request.tells_perform`).  Read off the lines of
the log alone, the lines that start a run and those that end one match like brackets
(`openRuns`).

Where functions pass errors on, nothing but the ends of runs is told after the read of an
absent field.
-/

namespace FieldScript

/-! ## runs among events -/

/-- The event with which a run is over that ends so, if it is over. -/
def Ending.closing? : Ending → Option Event
  | .done => some .programCompleted
  | .failed e => some (.programAborted e)
  | .blockExit | .tooDeep => none

/-- A run that ends with a value or an error is closed by an event. -/
theorem Ending.Settled.closing? {ending : Ending} (h : ending.Settled) :
    ∃ closing, ending.closing? = some closing := by
  cases ending with
  | done => exact ⟨_, rfl⟩
  | failed e => exact ⟨_, rfl⟩
  | blockExit | tooDeep => exact h.elim

/-- No event closes a run that cannot go on. -/
theorem Ending.closing?_of_not_settled {ending : Ending} (h : ¬ ending.Settled) :
    ending.closing? = none := by
  cases ending with
  | done | failed => exact absurd trivial h
  | blockExit | tooDeep => rfl

/-- An event that is neither the start nor the end of a run. -/
def Event.IsAside : Event → Prop
  | .programStarted _ | .programCompleted | .programAborted _ => False
  | _ => True

/-- Supplies neither start nor end a run. -/
theorem Event.IsSupply.aside {event : Event} (h : event.IsSupply) : event.IsAside := by
  cases event <;> trivial

/-- Acts neither start nor end a run. -/
theorem Event.IsAct.aside {event : Event} (h : event.IsAct) : event.IsAside := by
  cases event <;> trivial

/-- The machine after events, latest first. -/
def Machine.afterAll (m : Machine) (events : List Event) : Machine :=
  ⟨m.world.afterAll events, events ++ m.journal⟩

/-- Events can be gone through in two stretches. -/
theorem Machine.afterAll_append (m : Machine) (later earlier : List Event) :
    m.afterAll (later ++ earlier) = (m.afterAll earlier).afterAll later := by
  simp [afterAll, World.afterAll_append]

/-- Events, latest first, as a nest of runs that the host makes, and how many of these are
left open. -/
inductive Told (host : Host) : Machine → List Event → Nat → Prop where
  | nothing (m : Machine) : Told host m [] 0
  | aside (m : Machine) {event : Event} (h : event.IsAside) : Told host m [event] 0
  | andThen {m : Machine} {first second : List Event} {left : Nat} (hf : Told host m first 0)
      (hs : Told host (m.afterAll first) second left) : Told host m (second ++ first) left
  /-- A run that is over: what happens within it is over, and it is closed by what it ends
  with. -/
  | finished {m : Machine} {depth : Nat} {program : Program} {body : List Event} {closing : Event}
      (hends : ((host.run depth program).ending m).closing? = some closing)
      (hfinal : (host.run depth program).final m =
        m.afterAll (closing :: (body ++ [.programStarted program.length])))
      (hbody : Told host (m.after (.programStarted program.length)) body 0) :
      Told host m (closing :: (body ++ [.programStarted program.length])) 0
  /-- A run that cannot go on, with those left open that it has made. -/
  | unfinished {m : Machine} {depth : Nat} {program : Program} {body : List Event} {left : Nat}
      (hends : ((host.run depth program).ending m).closing? = none)
      (hfinal : (host.run depth program).final m =
        m.afterAll (body ++ [.programStarted program.length]))
      (hbody : Told host (m.after (.programStarted program.length)) body left) :
      Told host m (body ++ [.programStarted program.length]) (left + 1)

/-! ## computations that are told -/

section

variable {host : Host} {α β : Type}

/-- One machine leads to another through a nest of runs, all of which are over if a value or
an error is what comes out. -/
def Telling (host : Host) (m : Machine) (ending : Ending) (m' : Machine) : Prop :=
  ∃ events left, m' = m.afterAll events ∧ Told host m events left ∧ (ending.Settled → left = 0)

/-- What a computation does is a nest of runs, wherever it starts. -/
def Tells (host : Host) (x : Exec α) : Prop := ∀ m, Telling host m (x.ending m) (x.final m)

namespace Telling

variable {m m' m'' n : Machine} {middle ending : Ending}

/-- A machine leads to itself through nothing. -/
theorem nothing (m : Machine) (ending : Ending) : Telling host m ending m := by
  refine ⟨[], 0, rfl, .nothing m, ?_⟩
  intro _
  rfl

/-- A nest of runs can follow on one in which all runs are over. -/
theorem andThen (h : Telling host m middle m') (hs : middle.Settled)
    (h' : Telling host m' ending m'') : Telling host m ending m'' := by
  obtain ⟨first, left, rfl, htold, hleft⟩ := h
  obtain ⟨second, left', rfl, htold', hleft'⟩ := h'
  obtain rfl := hleft hs
  have hfinal := m.afterAll_append second first
  exact ⟨second ++ first, left', hfinal.symm, .andThen htold htold', hleft'⟩

/-- A result that another computation gives too is led to by the same nest. -/
theorem of_run {x y : Exec α} (h : Telling host m (y.ending m') (y.final m'))
    (hrun : x n = y m') : Telling host m (x.ending n) (x.final n) := by
  rwa [Exec.ending_of_run hrun, Exec.final_of_run hrun]

theorem of_stop {x : Exec α} {stop : Stop} (h : Telling host m stop.ending m')
    (hrun : x n = .error stop m') : Telling host m (x.ending n) (x.final n) := by
  rwa [Exec.ending_of_error hrun, Exec.final_of_error hrun]

end Telling

/-- A computation that changes nothing tells of no runs. -/
theorem tells_of_final {x : Exec α} (hx : ∀ m, x.final m = m) : Tells host x := by
  intro m
  rw [hx]
  exact .nothing m _

/-- An event aside tells of no runs. -/
theorem tells_emit (event : Event) (h : event.IsAside := by exact True.intro) :
    Tells host (Exec.emit event) := by
  intro m
  refine ⟨[event], 0, rfl, .aside m h, ?_⟩
  intro _
  rfl

/-- Nests of runs one after the other are a nest of runs. -/
theorem Tells.bind {x : Exec α} {f : α → Exec β} (hx : Tells host x) (hf : ∀ a, Tells host (f a)) :
    Tells host (x >>= f) := by
  intro m
  have hfirst := hx m
  cases hrun : x m with
  | ok a m' =>
      rw [Exec.ending_of_ok hrun, Exec.final_of_ok hrun] at hfirst
      exact (hfirst.andThen trivial (hf a m')).of_run (by rw [Exec.bind_run, hrun])
  | error stop m' =>
      rw [Exec.ending_of_error hrun, Exec.final_of_error hrun] at hfirst
      exact hfirst.of_stop (by rw [Exec.bind_run, hrun])

/-- An outcome that is kept is told of in the same way. -/
theorem Tells.settle {x : Exec α} (hx : Tells host x) : Tells host (Exec.settle x) := by
  intro m
  have htold := hx m
  obtain ⟨outcome, hrun, hend⟩ | ⟨stop, hrun, hend, _⟩ := Exec.settle_cases x m
  · rw [hend] at htold
    rw [Exec.ending_of_ok hrun, Exec.final_of_ok hrun]
    exact htold.andThen (Ending.settled_ofOutcome outcome) (.nothing _ _)
  · rw [hend] at htold
    exact htold.of_stop hrun

/-- Supplies tell of no runs. -/
theorem Supplies.tells {x : Exec α} (hx : Supplies x) : Tells host x := by
  intro m
  obtain ⟨a, events, hrun, hall⟩ := hx m
  refine ⟨events, 0, Exec.final_of_ok hrun, ?_, fun _ => rfl⟩
  clear hrun
  induction events with
  | nil => exact .nothing m
  | cons event earlier ih =>
      obtain ⟨hevent, hearlier⟩ := List.forall_mem_cons.mp hall
      have hone : Told host (m.afterAll earlier) [event] 0 := .aside _ hevent.aside
      exact .andThen (ih hearlier) hone

/-! ## expressions and instructions -/

/-- Telling of a nest of runs holds of computations put one after the other. -/
theorem sequential_tells : Sequential (Tells host) where
  pure _ := tells_of_final fun _ => rfl
  fail _ _ _ _ := tells_of_final fun _ => rfl
  context := tells_of_final fun _ => rfl
  bind := Tells.bind

/-- It holds of all that a host does besides running programs. -/
theorem hosted_tells : Hosted (Tells host) where
  toSequential := sequential_tells
  raise _ := tells_of_final fun _ => rfl
  store := tells_of_final fun _ => rfl
  act h := tells_emit _ h.aside
  tooDeep := tells_of_final fun _ => rfl
  look := tells_of_final fun _ => rfl
  settle := Tells.settle
  setField _ _ _ := tells_emit _
  enterCall _ _ := tells_emit _
  leaveCall := tells_emit _

theorem tells_assignVariable (name : Name) (value : Located) :
    Tells host (assignVariable name value) := by
  refine sequential_tells.context.bind fun c => ?_
  cases c.assign name.text value with
  | done _ => exact tells_emit _
  | libraryItem | unbound => exact sequential_tells.fail _ _ _ nofun

theorem tells_declareClass (name : Name) : Tells host (declareClass name) := by
  have hnext : Tells host Exec.nextClass := tells_of_final fun _ => rfl
  refine hnext.bind fun _ => ?_
  refine (tells_emit _).bind fun _ => ?_
  exact tells_emit _

theorem tells_leaveBlock : Tells host Exec.leaveBlock := by
  refine sequential_tells.context.bind fun c => ?_
  cases c.blocks with
  | nil => exact tells_of_final fun _ => rfl
  | cons scope outer => exact tells_emit _

/-- It holds of a block around a computation of which it holds. -/
theorem tells_inBlock {x : Exec α} (hx : Tells host x) : Tells host (Exec.inBlock x) := by
  refine (tells_emit _).bind fun _ => ?_
  refine hx.settle.bind fun outcome => ?_
  exact tells_leaveBlock.bind fun _ => hosted_tells.resume outcome

/-- So it holds of instructions, if it holds of calls. -/
theorem executive_tells {call : Caller} (hcall : ∀ site ref args, Tells host (call site ref args)) :
    Executive (Tells host) call where
  toEvaluative := hosted_tells.evaluative hcall
  declare _ _ := tells_emit _
  assign := tells_assignVariable
  write target range _ _ :=
    (sequential_tells.expectInstance target range).bind fun _ => tells_emit _
  declareClass := tells_declareClass
  inBlock := tells_inBlock

/-! ## programs and functions -/

/-- A run comes to its closing event after its instructions, if it comes to an end. -/
theorem Program.final_run (call : Caller) (program : Program) (m : Machine) :
    (program.run call).final m =
      ((Instr.runList call none program).final
        (m.after (.programStarted program.length))).afterAll
          ((program.run call).ending m).closing?.toList := by
  obtain ⟨value, _, hrun⟩ | ⟨e, _, hrun⟩ | ⟨stop, _, hs, hrun⟩ := Program.run_cases call program m
  · rw [Exec.final_of_ok hrun, Exec.ending_of_ok hrun]
    rfl
  · rw [Exec.final_of_error hrun, Exec.ending_of_error hrun]
    rfl
  · rw [Exec.final_of_error hrun, Exec.ending_of_error hrun, Ending.closing?_of_not_settled hs]
    rfl

/-- What a program does is told if calls are: the events of its instructions are what happens
within the run. -/
theorem Host.tells_run {depth : Nat}
    (hcall : ∀ site ref args, Tells host (host.call depth site ref args)) (program : Program) :
    Tells host (host.run depth program) := by
  intro m
  have hinstrs := Instr.has_runList (executive_tells hcall) none program
  obtain ⟨body, left, hbody, htold, hleft⟩ := hinstrs (m.after (.programStarted program.length))
  have hends : (host.run depth program).ending m = _ := Program.ending_run _ program m
  have hfinal : (host.run depth program).final m = m.afterAll
      (((host.run depth program).ending m).closing?.toList ++
        (body ++ [.programStarted program.length])) := by
    rw [Machine.afterAll_append, Machine.afterAll_append]
    exact (Program.final_run _ program m).trans (congrArg (Machine.afterAll · _) hbody)
  rw [← hends] at hleft
  -- a run that settles is closed, and nothing within it is left open; any other stays open
  by_cases hs : ((host.run depth program).ending m).Settled
  · obtain ⟨closing, hclosing⟩ := hs.closing?
    obtain rfl := hleft hs
    rw [hclosing] at hfinal
    exact ⟨_, 0, hfinal, .finished hclosing hfinal htold, fun _ => rfl⟩
  · have hnone := Ending.closing?_of_not_settled hs
    rw [hnone] at hfinal
    exact ⟨_, left + 1, hfinal, .unfinished hnone hfinal htold, fun h => absurd h hs⟩

/-- What a call does is told, whatever the functions of the host do. -/
theorem Host.tells_call (host : Host) (depth : Nat) (site : Location) (ref : FunctionRef)
    (args : List Located) : Tells host (host.call depth site ref args) :=
  host.has_call hosted_tells (fun _ hcall => Host.tells_run hcall) depth site ref args

theorem Request.tells_perform (host : Host) (depth : Nat) (request : Request) :
    Tells host (request.perform host depth) := by
  have hcall := host.tells_call depth
  refine request.has_perform sequential_tells Supplies.tells (Host.tells_run hcall) ?_ hcall
  intro expr
  exact expr.has_eval (hosted_tells.evaluative hcall)

end

/-! ## the lines of the log -/

/-- How many runs are in progress after a line, given how many there are before; none if the
line ends a run and there is none in progress. -/
def LogLine.runsAfter (line : LogLine) (runs : Nat) : Option Nat :=
  if line.message = "running program" then some (runs + 1)
  else if line.message = "program completed" ∨ line.message = "program aborted" then
    if runs = 0 then none else some (runs - 1)
  else some runs

/-- How many runs are in progress after the lines of a log. -/
def openRuns (runs : Nat) (log : List LogLine) : Option Nat :=
  log.foldlM (fun runs line => line.runsAfter runs) runs

/-- The log is written in the order of the events. -/
theorem logOf_append (later earlier : List Event) :
    logOf (later ++ earlier) = logOf earlier ++ logOf later := by
  simp [logOf]

/-- The lines of a log can be gone through in two stretches. -/
theorem openRuns_append {runs middle : Nat} {first second : List LogLine}
    (h : openRuns runs first = some middle) :
    openRuns runs (first ++ second) = openRuns middle second := by
  rw [openRuns, List.foldlM_append]
  exact (congrArg (· >>= _) h).trans rfl

/-- The line of an event aside opens and closes no run. -/
theorem openRuns_aside (runs : Nat) {event : Event} (h : event.IsAside) :
    openRuns runs (logOf [event]) = some runs := by
  cases event <;> first | rfl | exact h.elim

theorem openRuns_started (runs instructions : Nat) :
    openRuns runs (logOf [.programStarted instructions]) = some (runs + 1) := rfl

/-- The line of a closing event closes one run. -/
theorem openRuns_closing (runs : Nat) {ending : Ending} {closing : Event}
    (h : ending.closing? = some closing) :
    openRuns (runs + 1) (logOf [closing]) = some runs := by
  cases ending with
  | done | failed =>
      cases h
      rfl
  | blockExit | tooDeep => cases h

/-- The lines of a nest of runs match, but for the runs that are left open. -/
theorem Told.openRuns_eq {host : Host} {m : Machine} {events : List Event} {left : Nat}
    (h : Told host m events left) (runs : Nat) :
    openRuns runs (logOf events) = some (runs + left) := by
  induction h generalizing runs with
  | nothing => rfl
  | aside m h => exact openRuns_aside runs h
  | andThen hf hs ihf ihs => rw [logOf_append, openRuns_append (ihf runs), ihs, Nat.add_zero]
  | @finished m depth program body closing hends hfinal hbody ih =>
      have hopen : openRuns runs (logOf (body ++ [.programStarted program.length])) =
          some (runs + 1) := by
        rw [logOf_append, openRuns_append (openRuns_started runs program.length), ih]
      rw [← List.singleton_append, logOf_append, openRuns_append hopen]
      exact openRuns_closing runs hends
  | @unfinished m depth program body left hends hfinal hbody ih =>
      rw [logOf_append, openRuns_append (openRuns_started runs program.length), ih,
        Nat.add_right_comm, Nat.add_assoc]

/-- Runs that are in progress can all come to an end. -/
theorem openRuns_replicate (runs : Nat) :
    openRuns runs (List.replicate runs ⟨.debug, "program completed", []⟩) = some 0 := by
  induction runs with
  | zero => rfl
  | succ runs ih => exact ih

/-! ## steps whose functions pass errors on -/

section

variable {host : Host} {p : Powers} {s : Store} {w : World}

/-- A new plain function keeps a host within its powers. -/
theorem Host.Within.addFunction (hw : host.Within p s) {fn : Function} (hfn : fn.IsPlain) :
    host.Within p (s.addFunction fn) := by
  intro ref call
  rw [Store.fn, Store.addFunction, Array.getElem?_push]
  split
  · rw [Option.getD_some]
    obtain h | h | h := hfn
    · rw [h]
      exact Library.within_clock p call
    · rw [h]
      exact Library.within_hasField p call
    · rw [h]
      trivial
  · exact hw ref call

/-- The functions are still within the powers that they were within before. -/
def KeepsWithin (host : Host) (p : Powers) {α : Type} (x : Exec α) : Prop :=
  ∀ m, host.Within p m.world.store → host.Within p (x.final m).world.store

/-- So supplies keep a host within its powers. -/
theorem supplying_keepsWithin (host : Host) (p : Powers) : Supplying (KeepsWithin host p) where
  pure _ _ hw := hw
  bind {α β x f} hx hf m hw := by
    have hfirst := hx m hw
    rw [Exec.final, Exec.bind_run]
    cases hrun : x m with
    | ok a m' =>
        rw [Exec.final_of_ok hrun] at hfirst
        exact hf a m' hfirst
    | error stop m' => rwa [Exec.final_of_error hrun] at hfirst
  context _ hw := hw
  nextClass _ hw := hw
  nextInstance _ hw := hw
  nextFunction _ hw := hw
  emit {event} h hne m hw := by
    refine hw.of_functions ?_
    cases event <;> first | rfl | exact absurd rfl (hne _) | exact h.elim
  create fn hfn m hw := hw.addFunction hfn

/-- A call from outside makes its arguments and calls the function, unless there is none. -/
theorem Request.call_cases (host : Host) (depth : Nat) (fn : String) (args : List Argument)
    (site : Location) (m : Machine) :
    (∃ ref, (Request.call fn args site).perform host depth m =
        (Argument.evalAll [] args >>= fun values =>
          host.call depth site ref values >>= fun value => pure (.value value)) m) ∨
      (Request.call fn args site).perform host depth m = .ok (.notAFunction fn) m := by
  rw [Request.perform, Exec.bind_run, Exec.context_run]
  dsimp only
  cases m.world.context.get? fn with
  | none => exact .inr rfl
  | some located =>
      obtain ⟨value, origin⟩ := located
      cases value with
      | fn ref => exact .inl ⟨ref, rfl⟩
      | null | bool | int | float | string | cls | inst => exact .inr rfl

/-- A request supplies what it is given, and after that has a trace made for what the functions
are able to do that there were before. -/
theorem Request.supplied_leads (hw : host.Within p w.store) (hp : p.runs = true) (depth : Nat)
    (request : Request) :
    let x := request.perform host depth
    ∃ supplied, (∀ event ∈ supplied, event.IsSupply) ∧
      Leads p (Machine.afterAll ⟨w, []⟩ supplied) (x.ending ⟨w, []⟩) (x.final ⟨w, []⟩) := by
  intro x
  have htraced (h : Traced p w.store.functions x) : ∃ supplied : List Event,
      (∀ event ∈ supplied, event.IsSupply) ∧
        Leads p (Machine.afterAll ⟨w, []⟩ supplied) (x.ending ⟨w, []⟩) (x.final ⟨w, []⟩) :=
    ⟨[], List.forall_mem_nil _, h ⟨w, []⟩ rfl⟩
  cases request with
  | run program =>
      refine htraced ((hw.traced_run hp depth program).bind fun value => ?_)
      cases value <;> exact traced_pure _
  | eval expr => exact htraced ((hw.traced_eval depth expr).bind fun _ => traced_pure _)
  | get name =>
      refine htraced (traced_context_bind fun c => ?_)
      cases c.get? name <;> exact traced_pure _
  | call fn args site =>
      obtain ⟨ref, hrun⟩ | hrun := Request.call_cases host depth fn args site ⟨w, []⟩
      · have hkeeps := Argument.has_evalAll (supplying_keepsWithin host p) [] args ⟨w, []⟩ hw
        obtain ⟨values, supplied, hargs, hall⟩ :=
          Argument.has_evalAll supplying_supplies [] args ⟨w, []⟩
        rw [Exec.final_of_ok hargs] at hkeeps
        rw [Exec.bind_run, hargs] at hrun
        have hcall := (hkeeps.traced_call depth site ref values).bind
          fun value => traced_pure (Reply.value value)
        exact ⟨supplied, hall, (hcall _ rfl).of_run hrun⟩
      · have hnone : Leads p ⟨w, []⟩ .done ⟨w, []⟩ := leads_silent _ nofun
        exact ⟨[], List.forall_mem_nil _, hnone.of_run (y := pure _) hrun⟩

end

/-! ## the log of a request -/

/-- The line of the read of an absent field. -/
def LogLine.missed (cls field : String) : LogLine :=
  ⟨.debug, "read of an unassigned field, aborting program", [("class", cls), ("field", field)]⟩

/-- The line of a program that fails for this reason. -/
def LogLine.aborted (cause : Cause) : LogLine :=
  ⟨.debug, "program aborted", [("error", cause.message)]⟩

/-- Only a missed field is told in the line of one. -/
theorem Event.eq_fieldMissed_of_line? {event : Event} {cls field : String}
    (h : event.line? = some (.missed cls field)) :
    ∃ ref info name, event = .fieldMissed ref info name ∧ info.name = cls ∧ name.text = field := by
  cases event <;> simp [Event.line?, LogLine.missed] at h
  exact ⟨_, _, _, rfl, h.1, h.2⟩

/-- All that unwinding tells is that runs are aborted with the error. -/
theorem Event.Unwinds.line? {e : RuntimeError} {event : Event} (h : event.Unwinds e)
    {line : LogLine} (hline : event.line? = some line) : line = .aborted e.cause := by
  cases event with
  | programAborted e' =>
      cases h
      cases hline
      rfl
  | blockLeft | callLeft => cases hline
  | _ => exact h.elim

/-- A line of a log is that of an event, and the lines after it are those of the later events. -/
theorem logOf_eq_append_cons {journal : List Event} {before after : List LogLine} {line : LogLine}
    (h : logOf journal = before ++ line :: after) :
    ∃ later event earlier, journal = later ++ event :: earlier ∧ event.line? = some line ∧
      logOf later = after := by
  obtain ⟨first, second, hsplit, _, hsecond⟩ := List.filterMap_eq_append_iff.mp h
  obtain ⟨silent, event, rest, rfl, _, hline, hrest⟩ := List.filterMap_eq_cons_iff.mp hsecond
  refine ⟨rest.reverse, event, (first ++ silent).reverse, ?_, hline, ?_⟩
  · rw [← List.reverse_reverse journal, hsplit]
    simp
  · rw [logOf, List.reverse_reverse, hrest]

/-- The log of an answer is that of the events of its request. -/
theorem Request.log_answer (host : Host) (depth : Nat) (request : Request) (w : World) :
    (request.answer host depth w).1.log = logOf ((request.perform host depth).journal w) := by
  rw [Request.answer, Exec.journal, Exec.final]
  cases request.perform host depth ⟨w, []⟩ <;> rfl

/-- A request settles unless a block could not be left or calls were nested too deep. -/
theorem Request.settled_of_outcome {host : Host} {depth : Nat} {request : Request} {w : World}
    (hexit : (request.answer host depth w).1.outcome ≠ .stopped .blockExit)
    (hdeep : (request.answer host depth w).1.outcome ≠ .stopped .tooDeep) :
    ((request.perform host depth).ending ⟨w, []⟩).Settled := by
  rw [Request.answer] at hexit hdeep
  rw [Exec.ending]
  cases hrun : request.perform host depth ⟨w, []⟩ with
  | ok reply m => trivial
  | error stop m =>
      rw [hrun] at hexit hdeep
      cases stop with
      | error e => trivial
      | blockExit => exact absurd rfl hexit
      | tooDeep => exact absurd rfl hdeep

/-- Where functions pass errors on, what a request tells after the read of an absent field is
that programs fail with its error. -/
theorem Request.aborted_of_missed {host : Host} {w : World} (hw : host.Within .forwarding w.store)
    (depth : Nat) (request : Request) {before after : List LogLine} {cls field : String}
    (hlog : logOf ((request.perform host depth).journal w) = before ++ .missed cls field :: after) :
    ∀ line ∈ after, line = .aborted (.undefinedField cls field) := by
  obtain ⟨supplied, hall, events, hfinal, htrace⟩ := Request.supplied_leads hw rfl depth request
  have hjournal : (request.perform host depth).journal w = events ++ supplied := by
    rw [Exec.journal, hfinal]
    simp [Machine.afterAll]
  obtain ⟨later, event, earlier, hsplit, hline, hafter⟩ := logOf_eq_append_cons hlog
  obtain ⟨ref, info, name, rfl, rfl, rfl⟩ := Event.eq_fieldMissed_of_line? hline
  rw [hjournal] at hsplit
  obtain ⟨rest, _, hsupplied⟩ | ⟨part, hevents, _⟩ := append_eq_append_cons hsplit
  · -- what is supplied reads nothing
    exact (hall (.fieldMissed ref info name) (by simp [hsupplied])).elim
  · have hout : Unwinding .forwarding _ _ part (.fieldMissed ref info name) later _ :=
      htrace.unwinding rfl hevents rfl
    intro line hmem
    rw [← hafter, logOf, List.mem_filterMap] at hmem
    obtain ⟨event, hevent, hline⟩ := hmem
    exact (hout.unwinds event (List.mem_reverse.mp hevent)).line? hline

/-- The log of a request is a nest of runs that the host makes, and its lines match like
brackets.  Only where a block cannot be left, or calls are nested too deep, are runs left open,
and then the log is the beginning of one whose lines all match.  Where functions pass errors
on, the read of an absent field is followed by programs that fail with its error and by nothing
else. -/
theorem Request.log_nests (host : Host) (depth : Nat) (request : Request) (w : World) :
    let a := (request.answer host depth w).1
    ∃ events left, a.log = logOf events ∧ (request.answer host depth w).2 = w.afterAll events ∧
      Told host ⟨w, []⟩ events left ∧ openRuns 0 a.log = some left ∧
      (a.outcome ≠ .stopped .blockExit → a.outcome ≠ .stopped .tooDeep → left = 0) ∧
      (∃ rest, openRuns 0 (a.log ++ rest) = some 0) ∧
      (host.Within .forwarding w.store → ∀ {before after cls field},
        a.log = before ++ .missed cls field :: after →
          ∀ line ∈ after, line = .aborted (.undefinedField cls field)) := by
  intro a
  obtain ⟨events, left, hfinal, htold, hleft⟩ := request.tells_perform host depth ⟨w, []⟩
  have hlog : a.log = logOf events := by
    rw [Request.log_answer, Exec.journal, hfinal]
    simp [Machine.afterAll]
  have hworld : (request.answer host depth w).2 = w.afterAll events := by
    rw [Request.world_answer, hfinal]
    rfl
  have hopen : openRuns 0 a.log = some left := by
    rw [hlog, htold.openRuns_eq, Nat.zero_add]
  refine ⟨events, left, hlog, hworld, htold, hopen,
    fun hexit hdeep => hleft (Request.settled_of_outcome hexit hdeep),
    ⟨_, (openRuns_append hopen).trans (openRuns_replicate left)⟩,
    fun hw before after cls field h => ?_⟩
  rw [Request.log_answer] at h
  exact Request.aborted_of_missed hw depth request h

/-- A script reads an absent field, and both programs fail with the error of that. -/
theorem Request.log_nests_readerScript :
    let host := Host.ofScripts (fun _ => some readerScript) fun _ => .beforeEpoch
    let w := worldWith [scriptFunction]
    let log := ((Request.run classThenScript).answer host 3 w).1.log
    openRuns 0 log = some 0 ∧ log.drop 4 = .missed "A" "f" :: log.drop 5 ∧ log.length = 7 ∧
      ∀ line ∈ log.drop 5, line = .aborted (.undefinedField "A" "f") := by
  intro host w log
  have hwithout : w.store.WithoutAttempt := by decide +kernel
  have hread : log.drop 4 = .missed "A" "f" :: log.drop 5 := by decide +kernel
  obtain ⟨e, hfailed⟩ : ∃ e, ((Request.run classThenScript).answer host 3 w).1.outcome =
      .stopped (.error e) := ⟨_, rfl⟩
  obtain ⟨_, left, _, _, _, hopen, hleft, _, hlines⟩ :=
    Request.log_nests host 3 (.run classThenScript) w
  have hsplit : log = log.take 4 ++ .missed "A" "f" :: log.drop 5 := by
    rw [← hread, List.take_append_drop]
  have hnone : left = 0 := hleft (by simp [hfailed]) (by simp [hfailed])
  exact ⟨hnone ▸ hopen, hread, by decide +kernel, hlines (hwithout.within _ _) hsplit⟩

/-- The exit of a block stops this program and leaves it open. -/
example : openRuns 0 ((Request.run attemptInBlock).answer failingHost 3
    (worldWith Library.embeddedFunctions)).1.log = some 1 := by
  decide +kernel

end FieldScript
