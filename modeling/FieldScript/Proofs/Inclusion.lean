import FieldScript.Proofs.AlikeNatives
import FieldScript.Proofs.Composition

/-!
# FieldScript.Proofs.Inclusion

A program that a function runs successfully is included.

A function runs a program in the scopes of its caller and with its own call in progress.
Unless functions look at them, the calls in progress make no difference but in the errors
that record them (`Host.IgnoresCalls`).  So a program that succeeds there does what its
instructions do if they stand in the calling block.
-/

namespace FieldScript

/-! ## without the calls in progress -/

/-- The error without the calls it records. -/
def RuntimeError.forgetCalls (e : RuntimeError) : RuntimeError := { e with calls := [] }

def Stop.forgetCalls : Stop → Stop
  | .error e => .error e.forgetCalls
  | .blockExit => .blockExit
  | .tooDeep => .tooDeep

def Event.forgetCalls : Event → Event
  | .programAborted e => .programAborted e.forgetCalls
  | event => event

def World.forgetCalls (w : World) : World := w.withCalls []

theorem World.eq_of_forgetCalls {w w' : World} (h : w.forgetCalls = w'.forgetCalls)
    (hc : w.context.calls = w'.context.calls) : w = w' :=
  calc w = w.forgetCalls.withCalls w.context.calls := rfl
    _ = w'.forgetCalls.withCalls w'.context.calls := by rw [h, hc]
    _ = w' := rfl

/-- The functions of a store go on alike whatever calls are in progress. -/
def Host.IgnoresCalls (h : Host) (s : Store) : Prop :=
  ∀ extent, h.Alike (.strict Eq false extent s.functions) h

/-- But for `inspect`, the functions of the library and of the host do not look at the
calls in progress. -/
theorem Host.ignoresCalls_ofScripts (scripts : Library.Scripts) (clock : Nat → Reading) {s : Store}
    (hs : ∀ f ∈ s.functions, f.behaviour ≠ .embedded "inspect") :
    (Host.ofScripts scripts clock).IgnoresCalls s := by
  intro extent
  refine Host.alike_ofScripts (fun name => ?_) clock hs (.inl (Likeness.exact_strict ..))
  cases scripts name with
  | none => exact .none
  | some program => exact .some (.refl _ program)

section Exact

variable {L : Likeness} (hL : L.Exact)

include hL

theorem RuntimeError.Alike.forgetCalls_eq {e e' : RuntimeError} (h : e.Alike L e') :
    e.forgetCalls = e'.forgetCalls := by
  have hlocation := h.location.eq hL.range
  have hinfos := h.infos.eq hL.range
  rw [forgetCalls, forgetCalls, hlocation, h.cause, hinfos]

theorem Stop.Alike.forgetCalls_eq {stop stop' : Stop} (h : stop.Alike L stop') :
    stop.forgetCalls = stop'.forgetCalls := by
  cases h with
  | error he => exact congrArg Stop.error (he.forgetCalls_eq hL)
  | blockExit | tooDeep => rfl

theorem Event.Alike.forgetCalls_eq {event event' : Event} (h : event.Alike L event') :
    event.forgetCalls = event'.forgetCalls := by
  obtain rfl | ⟨e, e', he, rfl, rfl⟩ := h.eq_or_aborted hL
  · rfl
  · exact congrArg Event.programAborted (he.forgetCalls_eq hL)

theorem World.Alike.forgetCalls_eq (hp : ∀ {p p'}, L.policy p p' → p = p') {w w' : World}
    (h : w.Alike L w') : w.forgetCalls = w'.forgetCalls := by
  have heq := h.eq_with hL
  rw [← hp h.context.policy] at heq
  rw [heq]
  rfl

end Exact

/-! ## other calls in progress -/

/-- Two results are the same but for the calls that errors record. -/
theorem InStep.result_withCalls {α : Type} {extent : Extent} {x y : Exec α} {w : World}
    (h : InStep (.strict Eq false extent w.store.functions) Eq x y) (calls : List CallEntry)
    (hc : extent.Covers (x.ending ⟨w, []⟩)) :
    (y.result (w.withCalls calls)).1.mapError Stop.forgetCalls =
        (x.result w).1.mapError Stop.forgetCalls ∧
      (y.result (w.withCalls calls)).2.forgetCalls = (x.result w).2.forgetCalls ∧
      (y.journal (w.withCalls calls)).map Event.forgetCalls =
        (x.journal w).map Event.forgetCalls := by
  have hL : (Likeness.strict Eq false extent w.store.functions).Exact := Likeness.exact_strict ..
  have hw : w.Alike (.strict Eq false extent w.store.functions) (w.withCalls calls) :=
    w.alike_with calls w.context.policy rfl rfl nofun
  obtain ⟨hresult, hworld, hjournal⟩ := h.result hw hc
  refine ⟨?_, ?_, ?_⟩
  · generalize (x.result w).1 = o at hresult
    generalize (y.result (w.withCalls calls)).1 = o' at hresult
    cases hresult with
    | ok hab => rw [hab]
    | error hs => exact congrArg Except.error (hs.forgetCalls_eq hL).symm
  · exact (hworld.forgetCalls_eq hL id).symm
  · exact (forall₂_iff_map_eq.mp (hjournal.imp fun _ _ he => he.forgetCalls_eq hL)).symm

theorem aborts_map_forgetCalls {events : List Event} :
    Aborts (events.map Event.forgetCalls) ↔ Aborts events := by
  constructor
  · rintro ⟨e, hmem⟩
    obtain ⟨event, hevent, heq⟩ := List.mem_map.mp hmem
    cases event with
    | programAborted e' => exact ⟨e', hevent⟩
    | _ => cases heq
  · rintro ⟨e, hmem⟩
    exact ⟨e.forgetCalls, List.mem_map.mpr ⟨_, hmem, rfl⟩⟩

section Calls

variable {h : Host} {w : World}

theorem Host.IgnoresCalls.callersInStep (hh : h.IgnoresCalls w.store) (extent : Extent)
    {depth depth' : Nat} (hle : depth ≤ depth') (hall : extent = .all → depth = depth')
    (hanswers : extent ≠ .answers) :
    CallersInStep (.strict Eq false extent w.store.functions) (h.call depth) (h.call depth') := by
  rw [← h.callReporting_malformed, ← h.callReporting_malformed]
  exact (hh extent).callersInStep (reportsInStep_malformed id) (.inl hanswers) hle hall

theorem Host.IgnoresCalls.inStep_runList (hh : h.IgnoresCalls w.store) (depth : Nat)
    (instrs : List Instr) :
    InStep (.strict Eq false .ends w.store.functions) Eq
      (Instr.runList (h.call depth) none instrs)
      (Instr.runList (h.call (depth + 1)) none instrs) := by
  have hcallers := hh.callersInStep .ends (Nat.le_succ depth) nofun nofun
  exact (Instr.inStep_runList hcallers .none (.refl _ instrs)).mono
    (eq_of_rel (Located.Alike.eq (Likeness.exact_strict ..)))

/-- The calls that are left are the same if a program failed meanwhile in both runs or in
none. -/
theorem Alive.calls_eq {c c' c'' : Context} {events : List Event} (h : Alive c events c')
    (h' : Alive c events c'') : c'.calls = c''.calls := by
  obtain ⟨hn, hsame⟩ | ⟨ha, hbare⟩ := h
  · obtain ⟨_, hsame'⟩ | ⟨ha, _⟩ := h'
    · rw [hsame.2, hsame'.2]
    · exact absurd ha hn
  · obtain ⟨hn, _⟩ | ⟨_, hbare'⟩ := h'
    · exact absurd ha hn
    · rw [hbare.2, hbare'.2]

/-- A computation that succeeds leaves the calls it found, or none if a program failed
meanwhile. -/
theorem Traced.alive_of_ok {α : Type} {x : Exec α} {a : α} {w' : World}
    (hx : Traced .all w.store.functions x) (h : x.result w = (.ok a, w')) :
    Alive w.context (x.journal w) w'.context := by
  obtain ⟨ht, hworld⟩ := hx.trace
  have hend : x.ending ⟨w, []⟩ = .done := by rw [Exec.ending_of_result, h]
  rw [hend] at ht
  have hlast : w' = w.afterAll (x.journal w) := by rw [← hworld, Exec.world_final, h]
  exact hlast ▸ ht.alive.1 trivial

/-- What a program leaves that succeeds within a call is what its instructions leave if
they are run directly where the call is made. -/
theorem Host.IgnoresCalls.result_runList (hh : h.IgnoresCalls w.store) {depth : Nat}
    {program : Program} (entry : CallEntry) (args : Nat) {value : Option Located} {inner : World}
    (hrun : (h.run depth program).result (w.after (.callEntered entry args)) = (.ok value, inner)) :
    (Instr.runList (h.call (depth + 1)) none program).result w =
      (.ok value, inner.after .callLeft) := by
  have hbody := Program.body_of_run_ok (h.detached_runList depth program) hrun
  have hend : (Instr.runList (h.call depth) none program).ending
      ⟨w.after (.callEntered entry args), []⟩ = .done := by rw [Exec.ending_of_result, hbody]
  have hstart : (w.after (.callEntered entry args)).withCalls w.context.calls = w := rfl
  have hstep : InStep (.strict Eq false .ends (w.after (.callEntered entry args)).store.functions)
      Eq _ _ := hh.inStep_runList depth program
  obtain ⟨hresult, hworld, hjournal⟩ :=
    hstep.result_withCalls w.context.calls (hend ▸ Extent.covers_done)
  rw [hstart, hbody] at hresult hworld
  rw [hstart] at hjournal
  obtain ⟨o, last, hdirect⟩ : ∃ o last,
      (Instr.runList (h.call (depth + 1)) none program).result w = (o, last) := ⟨_, _, rfl⟩
  rw [hdirect] at hresult hworld
  obtain rfl : o = .ok value := by
    cases o with
    | ok v => exact hresult
    | error stop => cases hresult
  -- either both leave the calls they found or, if a program failed, both leave none
  have hcalls : last.context.calls = inner.context.leaveCall.calls := by
    have haborts : Aborts ((Instr.runList (h.call depth) none program).journal
        (w.after (.callEntered entry args))) ↔
          Aborts ((Instr.runList (h.call (depth + 1)) none program).journal w) := by
      rw [← aborts_map_forgetCalls, ← hjournal, aborts_map_forgetCalls]
    have hwithin := Traced.alive_of_ok (w := w.after (.callEntered entry args))
      ((h.within_all w.store).traced_body depth program) hbody
    have hhere := Traced.alive_of_ok (w := w)
      ((h.within_all w.store).traced_body (depth + 1) program) hdirect
    exact (hhere.congr haborts).calls_eq hwithin.returned
  have hsame : last = inner.after .callLeft := World.eq_of_forgetCalls hworld hcalls
  rw [hdirect, hsame]

/-- What a call of a function comes to that runs a program and answers at once. -/
theorem Host.result_call_of_run {depth : Nat} {site : Location} {ref : FunctionRef}
    {args : List Located} {program : Program} {next : Except RuntimeError (Option Located) → Action}
    {value : Option Located} {answer : Value} {inner : World}
    (hruns : h.routine (w.store.fn ref).behaviour ⟨site, args⟩ = .run program next)
    (hnext : next (.ok value) = .answer answer)
    (hrun : (h.run depth program).result
      (w.after (.callEntered ⟨(w.store.fn ref).name, site⟩ args.length)) = (.ok value, inner)) :
    (h.call (depth + 1) site ref args).result w = (.ok answer, inner.after .callLeft) := by
  let entered : Event := .callEntered ⟨(w.store.fn ref).name, site⟩ args.length
  obtain ⟨journal, hperform⟩ : ∃ journal,
      (h.routine (w.store.fn ref).behaviour ⟨site, args⟩).perform h.clock (h.call depth)
        ⟨w.after entered, [entered]⟩ = .ok answer ⟨inner, journal⟩ := by
    have hdetached := h.detached_run depth program (w.after entered) [entered]
    rw [hrun] at hdetached
    have hprogram : program.run (h.call depth) ⟨w.after entered, [entered]⟩ =
        .ok value ⟨inner, (h.run depth program).journal (w.after entered) ++ [entered]⟩ := hdetached
    refine ⟨(h.run depth program).journal (w.after entered) ++ [entered], ?_⟩
    rw [hruns, Action.perform, Exec.bind_run, Exec.settle_run, hprogram]
    dsimp only
    rw [hnext]
    rfl
  have hcall : h.call (depth + 1) site ref args ⟨w, []⟩ =
      .ok answer ⟨inner.after .callLeft, .callLeft :: journal⟩ := by
    rw [Host.call, Exec.bind_run, Exec.store_run]
    dsimp only
    rw [Exec.inCall, Exec.bind_run, Exec.emit_run]
    dsimp only
    rw [Exec.bind_run, Exec.settle_run]
    have hstart : (Machine.mk w []).after entered = ⟨w.after entered, [entered]⟩ := rfl
    rw [hstart, hperform]
    rfl
  rw [Exec.result, hcall]

end Calls

/-- A program that succeeds when a function runs it does what its instructions do if they
stand in the calling block: they succeed there with the same value, and the world that
they leave, with all its scopes, its counter and its store, is the one after the call.  A
function that only runs the program leaves that very world.

More generally, other calls in progress change nothing about a program but the calls that
its errors record. -/
theorem Host.run_included (h : Host) (depth : Nat) (w : World) (hh : h.IgnoresCalls w.store)
    (site : Location) (ref : FunctionRef) (args : List Located) (program : Program) :
    let run := h.run depth program
    let fn := w.store.fn ref
    let within := w.after (.callEntered ⟨fn.name, site⟩ args.length)
    let directly := Instr.runList (h.call (depth + 1)) none program
    (∀ value inner, run.result within = (.ok value, inner) →
        directly.result w = (.ok value, inner.after .callLeft) ∧
          ∀ next answer, h.routine fn.behaviour ⟨site, args⟩ = .run program next →
            next (.ok value) = .answer answer →
              (h.call (depth + 1) site ref args).result w = (.ok answer, (directly.result w).2)) ∧
      ∀ calls,
        (run.result (w.withCalls calls)).1.mapError Stop.forgetCalls =
            (run.result w).1.mapError Stop.forgetCalls ∧
          (run.result (w.withCalls calls)).2.forgetCalls = (run.result w).2.forgetCalls ∧
          (run.journal (w.withCalls calls)).map Event.forgetCalls =
            (run.journal w).map Event.forgetCalls := by
  intro run fn within directly
  constructor
  · intro value inner hrun
    have hdirect := hh.result_runList _ _ hrun
    refine ⟨hdirect, fun next answer hruns hnext => ?_⟩
    rw [hdirect]
    exact Host.result_call_of_run hruns hnext hrun
  · intro calls
    have hcall := hh.callersInStep .all (Nat.le_refl depth) (fun _ => rfl) nofun
    have hstep : InStep (.strict Eq false .all w.store.functions) Eq run run :=
      (Program.inStep_run hcall (.refl _ program)).mono
        (eq_of_rel (Located.Alike.eq (Likeness.exact_strict ..)))
    exact hstep.result_withCalls calls (Extent.covers_all _)

/-- A script that declares a variable, called within a block, declares it there. -/
theorem run_included_script :
    let host := Host.ofScripts (fun _ => some declaresX) fun _ => .beforeEpoch
    let w := (worldWith [scriptFunction]).after .blockEntered
    let args : List Located := [⟨.string "script", .source .synthetic⟩]
    let last := ((Instr.runList (host.call 1) none declaresX).result w).2
    (host.call 1 (.source .synthetic) ⟨2⟩ args).result w = (.ok .null, last) ∧
      last.context.current.id = 2 ∧ last.context.current.vars.names = ["x"] := by
  intro host w args last
  have hh : host.IgnoresCalls w.store := Host.ignoresCalls_ofScripts _ _ (by decide +kernel)
  have hrun : (host.run 0 declaresX).result
      (w.after (.callEntered ⟨(w.store.fn ⟨2⟩).name, .source .synthetic⟩ args.length)) =
        (.ok none, _) := Prod.ext (by decide +kernel) rfl
  obtain ⟨_, hcall⟩ :=
    (host.run_included 0 w hh (.source .synthetic) ⟨2⟩ args declaresX).1 none _ hrun
  exact ⟨hcall _ .null rfl rfl, by decide +kernel, by decide +kernel⟩

end FieldScript
