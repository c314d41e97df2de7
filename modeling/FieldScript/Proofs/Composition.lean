import FieldScript.Proofs.AlikeHosts
import FieldScript.Proofs.BlockExit

/-!
# FieldScript.Proofs.Composition

One program after the other.

What a computation of the language does depends on the world it starts in and not on
what was recorded before (`Detached`).  So the instructions of two programs, run in one
go, do what they do in two programs: a program that succeeds leaves the world as its
instructions do, and only the records of its start and its end come in between.
-/

namespace FieldScript

/-! ## computations that do not read the journal -/

section Detached

variable {α β : Type}

/-- Goes on with a result. -/
def Exec.conclude : Except Stop α → Exec α
  | .ok a => pure a
  | .error stop => throw stop

theorem Exec.result_journal_of_conclude {x : Exec α} {w : World} {o : Except Stop α} {m : Machine}
    (h : x ⟨w, []⟩ = conclude o m) : x.result w = (o, m.world) ∧ x.journal w = m.journal := by
  rw [result, journal, final, h]
  cases o <;> exact ⟨rfl, rfl⟩

/-- What was recorded before stays below what the computation records, and makes no
difference to it. -/
def Detached (x : Exec α) : Prop :=
  ∀ w earlier, x ⟨w, earlier⟩ =
    Exec.conclude (x.result w).1 ⟨(x.result w).2, x.journal w ++ earlier⟩

/-- In step with itself where nothing may differ, a computation is detached. -/
theorem detached_of_inStep {x : Exec α}
    (h : ∀ functions, InStep (.strict Eq true .all functions) Eq x x) : Detached x := by
  intro w earlier
  have hw : w.Alike (.strict Eq true .all w.store.functions) w :=
    w.alike_with w.context.calls w.context.policy rfl rfl fun _ => rfl
  have hmeet : Meet (.strict Eq true .all w.store.functions) Eq ⟨w, []⟩ ⟨w, earlier⟩ (x ⟨w, []⟩)
      (x ⟨w, earlier⟩) := h w.store.functions hw (Extent.covers_all _)
  have hL : (Likeness.strict Eq true .all w.store.functions).Exact := Likeness.exact_strict ..
  rw [Exec.result, Exec.journal, Exec.final]
  generalize x ⟨w, []⟩ = r at hmeet
  generalize x ⟨w, earlier⟩ = r' at hmeet
  have hmachine {n n' : Machine} (hn : Proceed (.strict Eq true .all w.store.functions)
      ⟨w, []⟩ ⟨w, earlier⟩ n n') : n' = ⟨n.world, n.journal ++ earlier⟩ := by
    obtain ⟨added, added', hadded, hadded', halike⟩ := hn.events
    have hpolicy : n.world.context.policy = n'.world.context.policy := hn.world.context.policy
    have hworld : n'.world = n.world := by
      rw [hn.world.eq_withPolicy hL rfl, ← hpolicy]
      rfl
    have hjournal : n'.journal = n.journal ++ earlier := by
      rw [hadded', hadded, ← eq_of_forall₂ (Event.Alike.eq hL rfl) halike, List.append_nil]
    exact (Machine.mk.injEq ..).mpr ⟨hworld, hjournal⟩
  cases hmeet with
  | answered hab hn => rw [hmachine hn, hab]; rfl
  | stopped hs hn => rw [hmachine hn, hs.eq hL.range rfl]; rfl

namespace Detached

/-- One computation after the other goes on where the first has ended. -/
theorem bind_of_ok {x : Exec α} {f : α → Exec β} (hx : Detached x) (hf : ∀ a, Detached (f a))
    {w w' : World} {a : α} (h : x.result w = (.ok a, w')) :
    (x >>= f).result w = (f a).result w' ∧
      (x >>= f).journal w = (f a).journal w' ++ x.journal w := by
  have hrun : (x >>= f) ⟨w, []⟩ = Exec.conclude ((f a).result w').1
      ⟨((f a).result w').2, (f a).journal w' ++ x.journal w⟩ := by
    rw [Exec.bind_run, hx w [], h, List.append_nil]
    exact hf a w' (x.journal w)
  exact Exec.result_journal_of_conclude hrun

theorem bind_of_error {x : Exec α} {f : α → Exec β} (hx : Detached x) {w w' : World} {stop : Stop}
    (h : x.result w = (.error stop, w')) :
    (x >>= f).result w = (.error stop, w') ∧ (x >>= f).journal w = x.journal w := by
  have hrun : (x >>= f) ⟨w, []⟩ = Exec.conclude (.error stop) ⟨w', x.journal w⟩ := by
    rw [Exec.bind_run, hx w [], h, List.append_nil]
    rfl
  exact Exec.result_journal_of_conclude hrun

end Detached

end Detached

/-! ## instructions and programs -/

theorem Host.callersInStep_strict (h : Host) (depth : Nat) (functions : Array Function) :
    CallersInStep (.strict Eq true .all functions) (h.call depth) (h.call depth) := by
  rw [← h.callReporting_malformed]
  have hL : (Likeness.strict Eq true .all functions).Exact := Likeness.exact_strict ..
  exact h.callersInStep_self hL rfl (reportsInStep_malformed id) (.inl nofun) depth

/-- Instructions do the same whatever was recorded before. -/
theorem Host.detached_runList (h : Host) (depth : Nat) (instrs : List Instr) :
    Detached (Instr.runList (h.call depth) none instrs) := by
  refine detached_of_inStep fun functions => ?_
  have hcallers := h.callersInStep_strict depth functions
  exact (Instr.inStep_runList hcallers .none (.refl _ instrs)).mono
    (eq_of_rel (Located.Alike.eq (Likeness.exact_strict ..)))

theorem Host.detached_run (h : Host) (depth : Nat) (program : Program) :
    Detached (h.run depth program) := by
  refine detached_of_inStep fun functions => ?_
  have hcallers := h.callersInStep_strict depth functions
  exact (Program.inStep_run hcallers (.refl _ program)).mono
    (eq_of_rel (Located.Alike.eq (Likeness.exact_strict ..)))

theorem Instr.runList_append (call : Caller) (latest : Option Located) (first second : List Instr) :
    Instr.runList call latest (first ++ second) =
      (do Instr.runList call (← Instr.runList call latest first) second) := by
  induction first generalizing latest with
  | nil => rw [List.nil_append, Instr.runList, pure_bind]
  | cons instr rest ih =>
      rw [List.cons_append, Instr.runList, Instr.runList, bind_assoc]
      simp only [ih]

/-- The value from before counts only if there is no instruction. -/
theorem Instr.runList_of_ne_nil (call : Caller) (latest : Option Located) {instrs : List Instr}
    (h : instrs ≠ []) : Instr.runList call latest instrs = Instr.runList call none instrs := by
  cases instrs with
  | nil => exact absurd rfl h
  | cons instr rest => rw [Instr.runList, Instr.runList]

/-- The record of the end of a program, if it comes to one. -/
def Program.closing {α : Type} : Except Stop α → List Event
  | .ok _ => [.programCompleted]
  | .error (.error e) => [.programAborted e]
  | .error .blockExit | .error .tooDeep => []

/-- A program does what its instructions do, between the records of its start and its
end. -/
theorem Program.run_of_body {call : Caller} {program : Program}
    (hx : Detached (Instr.runList call none program)) {w w' : World}
    {o : Except Stop (Option Located)}
    (h : (Instr.runList call none program).result w = (o, w')) :
    (program.run call).result w = (o, w'.afterAll (closing o)) ∧
      (program.run call).journal w =
        closing o ++ ((Instr.runList call none program).journal w ++
          [.programStarted program.length]) := by
  have hstart : (Machine.mk w []).after (.programStarted program.length) =
      ⟨w, [.programStarted program.length]⟩ := rfl
  have hrun : program.run call ⟨w, []⟩ = Exec.conclude o ⟨w'.afterAll (closing o),
      closing o ++ ((Instr.runList call none program).journal w ++
        [.programStarted program.length])⟩ := by
    rw [Program.run, Exec.bind_run, Exec.emit_run]
    dsimp only
    rw [hstart, Exec.bind_run, Exec.settle_run, hx, h]
    cases o with
    | ok value => rfl
    | error stop => cases stop <;> rfl
  exact Exec.result_journal_of_conclude hrun

/-- A program that succeeds leaves the world that its instructions leave. -/
theorem Program.body_of_run_ok {call : Caller} {program : Program}
    (hx : Detached (Instr.runList call none program)) {w w' : World} {value : Option Located}
    (h : (program.run call).result w = (.ok value, w')) :
    (Instr.runList call none program).result w = (.ok value, w') := by
  obtain ⟨o, u, hbody⟩ : ∃ o u, (Instr.runList call none program).result w = (o, u) :=
    ⟨_, _, rfl⟩
  obtain ⟨rfl, rfl⟩ := Prod.mk.inj ((Program.run_of_body hx hbody).1.symm.trans h)
  exact hbody

/-- A program followed by another, run as one, comes to what running the first and, if
it succeeds, then the second in the same context comes to, and leaves the same world.
The events are the same but for the records of starts and ends in between.  If the first
stops, the whole stops for the same reason, in the same world and after the same events,
so nothing of the second is executed. -/
theorem Host.run_append (h : Host) (depth : Nat) (w : World) (first second : Program)
    (hsecond : second ≠ []) :
    let run := h.run depth
    (run (first ++ second)).result w =
        (match (run first).result w with
        | (.ok _, between) => (run second).result between
        | (.error stop, last) => (.error stop, last)) ∧
      (∀ value between, (run first).result w = (.ok value, between) →
        ∃ before after,
          (run first).journal w = .programCompleted :: (before ++ [.programStarted first.length]) ∧
          (run second).journal between = after ++ [.programStarted second.length] ∧
          (run (first ++ second)).journal w =
            after ++ (before ++ [.programStarted (first ++ second).length])) ∧
      ∀ stop last, (run first).result w = (.error stop, last) →
        ∃ events, (run first).journal w = events ++ [.programStarted first.length] ∧
          (run (first ++ second)).journal w =
            events ++ [.programStarted (first ++ second).length] := by
  intro run
  have hx := h.detached_runList depth
  have hjoin : Instr.runList (h.call depth) none (first ++ second) =
      (Instr.runList (h.call depth) none first >>= fun _ =>
        Instr.runList (h.call depth) none second) := by
    simp only [Instr.runList_append, Instr.runList_of_ne_nil _ _ hsecond]
  obtain ⟨o, between, hfirst⟩ : ∃ o between,
      (Instr.runList (h.call depth) none first).result w = (o, between) := ⟨_, _, rfl⟩
  obtain ⟨hrun, hjournal⟩ := Program.run_of_body (hx first) hfirst
  cases o with
  | error stop =>
      obtain ⟨hstop, hsame⟩ := (hx first).bind_of_error hfirst
      rw [← hjoin] at hstop hsame
      obtain ⟨hwhole, hrecords⟩ := Program.run_of_body (hx (first ++ second)) hstop
      rw [← List.append_assoc] at hjournal
      rw [hsame, ← List.append_assoc] at hrecords
      refine ⟨?_, ?_, fun _ _ _ => ⟨_, hjournal, hrecords⟩⟩
      · simp only [run, Host.run, hrun, hwhole]
      · simp [run, Host.run, hrun]
  | ok value =>
      obtain ⟨hgoes, hboth⟩ := (hx first).bind_of_ok (fun _ => hx second) hfirst
      rw [← hjoin] at hgoes hboth
      obtain ⟨o, last, hsecond⟩ : ∃ o last,
          (Instr.runList (h.call depth) none second).result between = (o, last) := ⟨_, _, rfl⟩
      obtain ⟨hnext, hlater⟩ := Program.run_of_body (hx second) hsecond
      obtain ⟨hwhole, hrecords⟩ := Program.run_of_body (hx (first ++ second)) (hgoes.trans hsecond)
      rw [← List.append_assoc] at hlater
      rw [hboth, List.append_assoc, ← List.append_assoc] at hrecords
      refine ⟨?_, fun v u hok => ?_, ?_⟩
      · simp only [run, Host.run, hrun, hwhole]
        exact hnext.symm
      · obtain ⟨-, rfl⟩ := Prod.mk.inj (hrun.symm.trans hok)
        exact ⟨_, _, hjournal, hlater, hrecords⟩
      · simp [run, Host.run, hrun]

/-- Declares `x`. -/
def declaresX : Program :=
  [.declare .synthetic ⟨.synthetic, "x"⟩ (.literal .synthetic (.int 1))]

/-- Reads `x`. -/
def readsX : Program := [.eval .synthetic (.variable .synthetic ⟨.synthetic, "x"⟩)]

/-- Declaring and then reading a variable comes to what it comes to in two programs; in
the other order the read fails and nothing is declared. -/
theorem run_append_declaresX :
    let run := failingHost.run 1
    let w := worldWith []
    (run (declaresX ++ readsX)).result w = (run readsX).result ((run declaresX).result w).2 ∧
      ((run (declaresX ++ readsX)).result w).1 = .ok (some ⟨.int 1, .source .synthetic⟩) ∧
      (run (readsX ++ declaresX)).result w = (run readsX).result w ∧
      ((run (readsX ++ declaresX)).result w).2.context.base.names = [] := by
  intro run w
  have hdeclares : (run declaresX).result w = (.ok none, ((run declaresX).result w).2) :=
    Prod.ext (by decide +kernel) rfl
  have hreads : (run readsX).result w =
      (.error (.error ⟨.source .synthetic, .undefinedVariable "x", [], []⟩),
        ((run readsX).result w).2) :=
    Prod.ext (by decide +kernel) rfl
  obtain ⟨hboth, -⟩ := failingHost.run_append 1 w declaresX readsX nofun
  obtain ⟨hstops, -⟩ := failingHost.run_append 1 w readsX declaresX nofun
  rw [hdeclares] at hboth
  rw [hreads] at hstops
  exact ⟨hboth, by decide +kernel, hstops.trans hreads.symm, by decide +kernel⟩

end FieldScript
