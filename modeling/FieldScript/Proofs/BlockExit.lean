import FieldScript.Session
import FieldScript.Proofs.Balance
import FieldScript.Proofs.Natives

/-!
# FieldScript.Proofs.BlockExit

When a run stops at the exit of a block.

A block cannot be left if its scope is gone.  That happens exactly if a program
failed while the block was being executed: from then on nothing else that runs, no
further block, no other program and no error that is passed on or dealt with,
brings the scope back or leads around the exit.
-/

namespace FieldScript

/-! ## moments of failure -/

theorem aborts_of_abortsInBlock {events : List Event} (h : AbortsInBlock events) :
    Aborts events := by
  obtain ⟨e, earlier, h, _⟩ := h
  exact ⟨e, h.subset List.mem_cons_self⟩

theorem abortsInBlock_cons {event : Event} {events : List Event} :
    AbortsInBlock (event :: events) ↔
      (∃ e, event = .programAborted e ∧ .block ∈ inProgress events) ∨ AbortsInBlock events := by
  constructor
  · intro h
    obtain ⟨e, earlier, h, hin⟩ := h
    obtain heq | h := List.suffix_cons_iff.mp h
    · obtain ⟨rfl, rfl⟩ := List.cons.inj heq
      exact .inl ⟨e, rfl, hin⟩
    · exact .inr ⟨e, earlier, h, hin⟩
  · intro h
    obtain ⟨e, rfl, hin⟩ | ⟨e, earlier, h, hin⟩ := h
    · exact ⟨e, events, List.suffix_rfl, hin⟩
    · exact ⟨e, earlier, h.trans (List.suffix_cons _ _), hin⟩

/-- Once something has settled, what follows has blocks of its own only. -/
theorem abortsInBlock_append {second first : List Event} (hs : Nests second)
    (hf : inProgress first = []) :
    AbortsInBlock (second ++ first) ↔ AbortsInBlock first ∨ AbortsInBlock second := by
  have hin {event : Event} {part : List Event} (hp : event :: part <:+ second) :
      inProgress (part ++ first) = inProgress part := by
    rw [hs part ((List.suffix_cons _ _).trans hp), hf, List.append_nil]
  constructor
  · intro h
    obtain ⟨e, earlier, h, hb⟩ := h
    obtain h | ⟨part, hp, rfl⟩ := cons_suffix_append_iff.mp h
    · exact .inl ⟨e, earlier, h, hb⟩
    · exact .inr ⟨e, part, hp, hin hp ▸ hb⟩
  · intro h
    obtain ⟨e, earlier, h, hb⟩ | ⟨e, part, hp, hb⟩ := h
    · exact ⟨e, earlier, List.suffix_append_of_suffix h, hb⟩
    · refine ⟨e, part ++ first, cons_suffix_append_iff.mpr (.inr ⟨part, hp, rfl⟩), ?_⟩
      rw [hin hp]
      exact hb

/-- Within something that has begun, a program fails while a block is being executed
if the block is within too, or if what has begun is a block. -/
theorem abortsInBlock_opened {opening : Event} {activity : Activity} {body : List Event}
    (ho : opening.begins? = some activity) (hb : Nests body) :
    AbortsInBlock (body ++ [opening]) ↔
      AbortsInBlock body ∨ (activity = .block ∧ Aborts body) := by
  have hin {event : Event} {part : List Event} (hp : event :: part <:+ body) :
      inProgress (part ++ [opening]) = inProgress part ++ [activity] := by
    rw [hb part ((List.suffix_cons _ _).trans hp), inProgress_cons_begins ho, inProgress_nil]
  constructor
  · intro h
    obtain ⟨e, earlier, h, hblock⟩ := h
    obtain h | ⟨part, hp, rfl⟩ := cons_suffix_append_iff.mp h
    · obtain heq | h := List.suffix_cons_iff.mp h
      · obtain ⟨rfl, _⟩ := List.cons.inj heq
        cases ho
      · cases List.suffix_nil.mp h
    · rw [hin hp, List.mem_append, List.mem_singleton] at hblock
      obtain hblock | hblock := hblock
      · exact .inl ⟨e, part, hp, hblock⟩
      · exact .inr ⟨hblock.symm, e, hp.subset List.mem_cons_self⟩
  · intro h
    obtain ⟨e, part, hp, hblock⟩ | ⟨rfl, e, he⟩ := h
    · refine ⟨e, part ++ [opening], cons_suffix_append_iff.mpr (.inr ⟨part, hp, rfl⟩), ?_⟩
      rw [hin hp]
      exact List.mem_append_left _ hblock
    · obtain ⟨later, part, rfl⟩ := List.append_of_mem he
      have hp : .programAborted e :: part <:+ later ++ .programAborted e :: part :=
        List.suffix_append _ _
      refine ⟨e, part ++ [opening], cons_suffix_append_iff.mpr (.inr ⟨part, hp, rfl⟩), ?_⟩
      rw [hin hp]
      exact List.mem_append_right _ List.mem_cons_self

/-! ## traces -/

/-- A trace stops at the exit of a block exactly if a program failed while a block
was being executed.

The induction is on the trace.  The scope that a block has entered is gone at its
exit only if a program failed meanwhile (`Alive.gone`), and still there only if none
did (`Alive.left`). -/
theorem Trace.blockExit_iff {p : Powers} {w : World} {events : List Event} {ending : Ending}
    (h : Trace p w events ending) :
    (ending.Settled → ¬ AbortsInBlock events) ∧ (ending = .blockExit → AbortsInBlock events) := by
  induction h with
  | silent w h =>
      exact ⟨fun _ ha => not_aborts_nil (aborts_of_abortsInBlock ha), fun he => absurd he h⟩
  | effect w h =>
      have hn := not_aborts_singleton h.ne_aborted
      exact ⟨fun _ ha => hn (aborts_of_abortsInBlock ha), nofun⟩
  | @missed w ref cls field hc hf =>
      have hn : ¬ Aborts [.fieldMissed ref cls field] := not_aborts_singleton nofun
      exact ⟨fun _ ha => hn (aborts_of_abortsInBlock ha), nofun⟩
  | andThen hgo hf hs ihf ihs =>
      rw [abortsInBlock_append hs.nests.1 (hf.nests.2 hgo.settled)]
      exact ⟨fun hset ha => ha.elim (ihf.1 hgo.settled) (ihs.1 hset), fun he => .inr (ihs.2 he)⟩
  | @bracket w opening closing activity body ending ho hp hb hc ih =>
      rw [abortsInBlock_cons, abortsInBlock_opened ho hb.nests.1]
      refine ⟨fun hset => ?_, ?_⟩
      · have hover := hb.nests.2 hset
        intro ha
        obtain ⟨e, rfl, hblock⟩ | ha | ⟨rfl, ha⟩ := ha
        · -- what has failed is the program itself, and nothing is in progress in it
          cases hc
          rw [inProgress_opened ho hb.nests.1, hover] at hblock
          cases List.mem_singleton.mp hblock
        · exact ih.1 hset ha
        · cases hc with
          | left hs hne =>
              cases opening <;> cases ho
              exact ((hb.alive.1 hset).left hne).1 ha
      · intro heq
        subst heq
        exact hc.settled.elim
  | @gone w body ending hs hb hc ih =>
      rw [abortsInBlock_opened rfl hb.nests.1]
      exact ⟨nofun, fun _ => .inr ⟨rfl, ((hb.alive.1 hs).gone hc).1⟩⟩
  | @unsettled w opening activity body ending ho hp hs hb ih =>
      rw [abortsInBlock_opened ho hb.nests.1]
      exact ⟨fun hset => absurd hset hs, fun he => .inl (ih.2 he)⟩

/-- Where functions run no programs, no program fails and every block is left. -/
theorem Trace.not_aborts {p : Powers} {w : World} {events : List Event} {ending : Ending}
    (h : Trace p w events ending) (hp : p.runs = false) : ¬ Aborts events := by
  induction h with
  | silent w h => exact not_aborts_nil
  | effect w h => exact not_aborts_singleton h.ne_aborted
  | missed hc hf => exact not_aborts_singleton nofun
  | andThen hgo hf hs ihf ihs => exact fun ha => (aborts_append.mp ha).elim ihs ihf
  | @bracket w opening closing activity body ending ho hruns hb hc ih =>
      intro ha
      obtain ⟨e, rfl⟩ | ha := aborts_cons.mp ha
      · cases hc
        exact absurd (hruns rfl) (by simp [hp])
      · exact ih ((aborts_opened ho).mp ha)
  | gone hs hb hc ih => exact fun ha => ih ((aborts_opened rfl).mp ha)
  | unsettled ho hruns hs hb ih => exact fun ha => ih ((aborts_opened ho).mp ha)

theorem Trace.ne_blockExit {p : Powers} {w : World} {events : List Event} {ending : Ending}
    (h : Trace p w events ending) (hp : p.runs = false) : ending ≠ .blockExit := by
  intro hexit
  have haborts := h.blockExit_iff.2 hexit
  exact h.not_aborts hp (aborts_of_abortsInBlock haborts)

/-! ## programs, expressions and calls -/

/-- A computation that comes to an end stops at the exit of a block if and only if a
program failed while a block was being executed. -/
def StopsByFailureOnly {α : Type} (x : Exec α) (w : World) : Prop :=
  x.ending ⟨w, []⟩ ≠ .tooDeep →
    (x.ending ⟨w, []⟩ = .blockExit ↔ AbortsInBlock (x.journal w))

section

variable {α : Type} {p : Powers} {x : Exec α} {w : World}

theorem Traced.stopsByFailureOnly (hx : Traced p w.store.functions x) :
    StopsByFailureOnly x w := by
  intro hend
  have hexit := hx.trace.1.blockExit_iff
  refine ⟨hexit.2, fun ha => ?_⟩
  obtain hs | hblock := Ending.settled_or hend
  · exact absurd ha (hexit.1 hs)
  · exact hblock

theorem Traced.ne_blockExit (hx : Traced p w.store.functions x) (hp : p.runs = false)
    (m : Machine) (hm : m.world.store.functions = w.store.functions) :
    x.ending m ≠ .blockExit := by
  obtain ⟨events, _, ht⟩ := hx m hm
  exact ht.ne_blockExit hp

end

/-- Where functions run no programs, a program leaves all its blocks. -/
theorem Host.Within.run_ne_blockExit {h : Host} {p : Powers} {w : World}
    (hw : h.Within p w.store) (hp : p.runs = false) (depth : Nat) (program : Program) :
    (h.run depth program).ending ⟨w, []⟩ ≠ .blockExit := by
  rw [Host.run, Program.ending_run]
  exact (hw.traced_body depth program).ne_blockExit hp _ rfl

/-- A program, an expression or a call that comes to an end stops at the exit of a
block if and only if a program, itself or one run by a function, fails while a block
is being executed.  Where no function runs programs, every block is left. -/
theorem blockExit_iff_abortsInBlock (h : Host) (depth : Nat) (w : World) :
    (∀ program, StopsByFailureOnly (h.run depth program) w) ∧
      (∀ expr, StopsByFailureOnly (h.eval depth expr) w) ∧
      (∀ site ref args, StopsByFailureOnly (h.call depth site ref args) w) ∧
      (h.Within .programless w.store →
        (∀ program, (h.run depth program).ending ⟨w, []⟩ ≠ .blockExit) ∧
          (∀ expr, (h.eval depth expr).ending ⟨w, []⟩ ≠ .blockExit) ∧
          ∀ site ref args, (h.call depth site ref args).ending ⟨w, []⟩ ≠ .blockExit) := by
  have hall := h.within_all w.store
  have hrun (program : Program) : StopsByFailureOnly (h.run depth program) w :=
    (hall.traced_run rfl depth program).stopsByFailureOnly
  have heval (expr : Expr) : StopsByFailureOnly (h.eval depth expr) w :=
    (hall.traced_eval depth expr).stopsByFailureOnly
  have hcall (site : Location) (ref : FunctionRef) (args : List Located) :
      StopsByFailureOnly (h.call depth site ref args) w :=
    (hall.traced_call depth site ref args).stopsByFailureOnly
  refine ⟨hrun, heval, hcall, fun hless => ⟨?_, ?_, ?_⟩⟩
  · exact hless.run_ne_blockExit rfl depth
  · intro expr
    exact (hless.traced_eval depth expr).ne_blockExit rfl _ rfl
  · intro site ref args
    exact (hless.traced_call depth site ref args).ne_blockExit rfl _ rfl

/-! ## a program that fails within a block -/

/-- A host whose scripts read a variable that is not there. -/
def failingHost : Host :=
  .ofScripts (fun _ => some [.eval .synthetic (.variable .synthetic ⟨.synthetic, "y"⟩)])
    fun _ => .beforeEpoch

/-- Runs a script within a block, deals with its error and then reads a variable of
the block. -/
def attemptInBlock : Program :=
  [.ifThen .synthetic (.literal .synthetic (.bool true)) <| .mk .synthetic
    [.declare .synthetic ⟨.synthetic, "x"⟩ (.literal .synthetic (.int 1)),
      .eval .synthetic <| .call .synthetic (.variable .synthetic ⟨.synthetic, "attempt"⟩)
        .synthetic [.literal .synthetic (.string "script")],
      .eval .synthetic (.variable .synthetic ⟨.synthetic, "x"⟩)]]

/-- The world of a fresh context whose library holds these functions after its own. -/
def worldWith (functions : List Function) : World :=
  match (do Library.bindAll "host" (← Library.build) functions) ⟨Session.blank .raise, []⟩ with
  | .ok library m => ⟨.new .raise library, m.world.store⟩
  | .error _ m => m.world

/-- The host's function that runs scripts and passes on their errors. -/
def scriptFunction : Function := (Library.script fun _ => none).function (.embedded "script")

/-- With the host's functions the exit of the block stops this program, since the
script fails within it; with the library alone nothing ever does. -/
theorem abortsInBlock_attempt :
    AbortsInBlock
        ((failingHost.run 3 attemptInBlock).journal (worldWith Library.embeddedFunctions)) ∧
      ∀ program, (failingHost.run 3 program).ending ⟨worldWith [], []⟩ ≠ .blockExit := by
  have hown : (worldWith []).store.OwnOnly := by decide +kernel
  have hstop : (failingHost.run 3 attemptInBlock).ending
      ⟨worldWith Library.embeddedFunctions, []⟩ = .blockExit := by decide +kernel
  constructor
  · refine ((blockExit_iff_abortsInBlock failingHost 3 _).1 attemptInBlock ?_).mp hstop
    rw [hstop]
    nofun
  · exact ((blockExit_iff_abortsInBlock failingHost 3 _).2.2.2 (hown.within _ _)).1

end FieldScript
