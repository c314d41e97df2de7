import FieldScript.Proofs.Unwinding

/-!
# FieldScript.Proofs.NestedFailure

Programs that fail within other programs.

A program that fails drops the blocks and calls of its context, those of whoever
runs it included.  A caller is left intact only if it had none to lose: it runs in
the base scope and within no call.  Otherwise its scopes or calls are gone, the
block around it cannot be left any more, and an error that is passed on does not
reach the outermost program.
-/

namespace FieldScript

/-! ## the scopes of a bare context -/

/-- Only declarations add names to the base scope, and no name goes away. -/
theorem World.base_names_after (w : World) (event : Event) :
    ∃ added, (w.after event).context.base.names = w.context.base.names ++ added ∧
      ∀ name ∈ added, ∃ value, event = .declared name value := by
  cases event with
  | declared name value =>
      simp only [after, Context.declare]
      split
      · rw [Bindings.names_insert]
        split
        · exact ⟨[], by simp, by simp⟩
        · exact ⟨[name], rfl, fun _ hn => ⟨value, by rw [List.mem_singleton.mp hn]⟩⟩
      · exact ⟨[], by simp, by simp⟩
  | assigned name value =>
      refine ⟨[], ?_, by simp⟩
      rw [List.append_nil]
      obtain ⟨c', hassigned, hafter⟩ | ⟨_, hafter⟩ := w.after_assigned name value
      · rw [hafter]
        exact hassigned.base_names
      · rw [hafter]
  | _ => exact ⟨[], (List.append_nil _).symm, by simp⟩

theorem World.base_names_afterAll (w : World) (events : List Event) :
    ∃ added, (w.afterAll events).context.base.names = w.context.base.names ++ added ∧
      ∀ name ∈ added, ∃ value, .declared name value ∈ events := by
  induction events with
  | nil => exact ⟨[], by simp, by simp⟩
  | cons event earlier ih =>
      obtain ⟨before, hbefore, hfrom⟩ := ih
      obtain ⟨added, hadded, hnow⟩ := (w.afterAll earlier).base_names_after event
      refine ⟨before ++ added, by rw [afterAll_cons, hadded, hbefore, List.append_assoc], ?_⟩
      intro name hname
      obtain hname | hname := List.mem_append.mp hname
      · obtain ⟨value, hmem⟩ := hfrom name hname
        exact ⟨value, List.mem_cons_of_mem _ hmem⟩
      · obtain ⟨value, rfl⟩ := hnow name hname
        exact ⟨value, List.mem_cons_self⟩

/-! ## callers -/

/-- What a caller relies on: its scopes and calls are those from before, and so are
the variables in them, but for those that the events have declared in the current
scope. -/
structure Context.Intact (before : Context) (events : List Event) (after : Context) : Prop where
  ids : after.scopes.map (·.id) = before.scopes.map (·.id)
  outer : after.scopes.tail.map (·.vars.names) = before.scopes.tail.map (·.vars.names)
  current : ∃ added, after.current.vars.names = before.current.vars.names ++ added ∧
    ∀ name ∈ added, ∃ value, .declared name value ∈ events
  calls : after.calls = before.calls

namespace Context

/-- A bare context has its base scope as the current one, and looks up names there
and in the library alone. -/
theorem Bare.get?_eq {c : Context} (h : c.Bare) (name : String) :
    c.get? name = (c.base.get? name).or (c.library.get? name) := by
  rw [Frames.get?, h.1]
  rfl

theorem bare_of_intact {before after : Context} {events : List Event}
    (h : before.Intact events after) (hafter : after.Bare) : before.Bare := by
  have hlength := congrArg List.length h.ids
  have hblocks : before.blocks = [] := by simpa [Frames.scopes, hafter.1] using hlength
  exact ⟨hblocks, h.calls ▸ hafter.2⟩

end Context

/-- A world left bare by events is intact exactly if it was bare before them. -/
theorem World.intact_iff_of_bare (w : World) (events : List Event)
    (hafter : (w.afterAll events).context.Bare) :
    w.context.Intact events (w.afterAll events).context ↔ w.context.Bare := by
  constructor
  · exact fun h => Context.bare_of_intact h hafter
  · intro hbefore
    obtain ⟨added, hnames, hdeclared⟩ := w.base_names_afterAll events
    have hlibrary := (w.settings_afterAll events).2
    constructor
    case ids => simp [Frames.scopes, hafter.1, hbefore.1]
    case outer => simp [Frames.scopes, hafter.1, hbefore.1, hlibrary]
    case current =>
      simp only [Frames.current, hafter.1, hbefore.1]
      exact ⟨added, hnames, hdeclared⟩
    case calls => rw [hafter.2, hbefore.2]

/-! ## what a failure does to them -/

/-- A call within which a program failed, and that comes back nevertheless, leaves
its caller with the base scope and no call.  The caller is intact exactly if it had
nothing else before. -/
theorem Trace.intact_iff {p : Powers} {w : World} {events : List Event} {ending : Ending}
    (h : Trace p w events ending) (hs : ending.Settled) (ha : Aborts events) :
    (w.afterAll events).context.Bare ∧
      (w.context.Intact events (w.afterAll events).context ↔ w.context.Bare) := by
  obtain ⟨hn, _⟩ | ⟨_, hbare⟩ := h.alive.1 hs
  · exact absurd ha hn
  · exact ⟨hbare, w.intact_iff_of_bare events hbare⟩

/-- A function that comes back after a program failed within its call has left the
caller intact if and only if the caller ran in the base scope and within no call.
Otherwise only the variables of the base scope and of the library can be seen, and
no block can be left.  Where every error is passed on, a failed program's error
comes out in the end if and only if no block is being executed around it. -/
theorem intact_iff_bare_of_aborts (h : Host) (depth : Nat) (w : World) :
    (∀ site ref args,
      let x := h.call depth site ref args
      let after := x.final ⟨w, []⟩
      (x.ending ⟨w, []⟩).Settled → Aborts (x.journal w) →
        (w.context.Intact (x.journal w) after.world.context ↔
          w.context.blocks = [] ∧ w.context.calls = []) ∧
        (∀ name, after.world.context.get? name =
          (after.world.context.base.get? name).or (w.context.library.get? name)) ∧
        Exec.leaveBlock after = .error .blockExit after) ∧
      (h.Within .forwarding w.store → ∀ program e later earlier,
        (h.run depth program).journal w = later ++ .programAborted e :: earlier →
          ((h.run depth program).ending ⟨w, []⟩ = .failed e ↔ .block ∉ inProgress earlier) ∧
          ((h.run depth program).ending ⟨w, []⟩ = .blockExit ↔ .block ∈ inProgress earlier)) := by
  constructor
  · intro site ref args x after hs ha
    obtain ⟨ht, hworld⟩ := ((h.within_all w.store).traced_call depth site ref args).trace
    obtain ⟨hbare, hintact⟩ := ht.intact_iff hs ha
    rw [← hworld] at hbare hintact
    have hget (name : String) : after.world.context.get? name =
        (after.world.context.base.get? name).or (w.context.library.get? name) := by
      rw [hbare.get?_eq, hworld, (w.settings_afterAll _).2]
    exact ⟨hintact, hget, Exec.leaveBlock_run_of_nil hbare.1⟩
  · intro hw program e later earlier hjournal
    obtain ⟨ht, _⟩ := (hw.traced_run rfl depth program).trace
    have hout := ht.unwinding rfl hjournal rfl (e := e)
    have hexit := hout.blockExit_iff_of_aborted
    have hfails : (h.run depth program).ending ⟨w, []⟩ = .failed e ↔
        ¬ (h.run depth program).ending ⟨w, []⟩ = .blockExit := by
      obtain hend | hend := hout.ending_eq
      · simp [hend]
      · simp [hend]
    exact ⟨hfails.trans (not_congr hexit), hexit⟩

/-! ## a caller within a block -/

/-- A world in which a block is being executed and has a variable. -/
def worldInBlock (functions : List Function) : World :=
  ((worldWith functions).after .blockEntered).after (.declared "x" ⟨.int 1, .source .synthetic⟩)

/-- The error of the scripts that fail, run by a function with this name. -/
def scriptError (fn : String) : RuntimeError :=
  ⟨.source .synthetic, .undefinedVariable "y", [⟨fn, .source .synthetic⟩], []⟩

/-- Runs a script within a block. -/
def scriptInBlock : Program :=
  [.ifThen .synthetic (.literal .synthetic (.bool true)) <| .mk .synthetic
    [.eval .synthetic <| .call .synthetic (.variable .synthetic ⟨.synthetic, "script"⟩)
      .synthetic [.literal .synthetic (.string "script")]]]

/-- Within a block, a script's error that is dealt with damages the caller, and one
that is passed on never comes out. -/
theorem not_intact_attempt :
    let x := failingHost.call 2 (.source .synthetic) ⟨6⟩ [⟨.string "script", .source .synthetic⟩]
    let w := worldInBlock Library.embeddedFunctions
    let run := failingHost.run 3 scriptInBlock
    let w' := worldWith [scriptFunction]
    (x.ending ⟨w, []⟩ = .done ∧
      ¬ w.context.Intact (x.journal w) (x.final ⟨w, []⟩).world.context) ∧
    run.ending ⟨w', []⟩ = .blockExit := by
  intro x w run w'
  have hend : x.ending ⟨w, []⟩ = .done := by decide +kernel
  have haborts : .programAborted (scriptError "attempt") ∈ x.journal w := by decide +kernel
  have hsettled : (x.ending ⟨w, []⟩).Settled := hend ▸ trivial
  have hlength : 0 < w.context.blocks.length := by decide +kernel
  have hwithout : w'.store.WithoutAttempt := by decide +kernel
  have hjournal : run.journal w' =
      (run.journal w').take 1 ++
        .programAborted (scriptError "script") :: (run.journal w').drop 2 := by
    decide +kernel
  have hblock : .block ∈ inProgress ((run.journal w').drop 2) := by decide +kernel
  refine ⟨⟨hend, fun hintact => ?_⟩, ?_⟩
  · have hcall := (intact_iff_bare_of_aborts failingHost 2 w).1 _ _ _ hsettled ⟨_, haborts⟩
    rw [(hcall.1.mp hintact).1] at hlength
    cases hlength
  · have hout := (intact_iff_bare_of_aborts failingHost 3 w').2 (hwithout.within _ _)
      scriptInBlock _ _ _ hjournal
    exact hout.2.mpr hblock

end FieldScript
