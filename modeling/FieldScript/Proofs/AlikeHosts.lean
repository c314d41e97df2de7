import FieldScript.Host
import FieldScript.Proofs.AlikePrograms
import FieldScript.Proofs.Runs

/-!
# FieldScript.Proofs.AlikeHosts

Alike functions run in step.

Functions are alike if alike calls lead to alike requests, whatever they look at and
whatever comes back (`Action.Alike`).  Hosts with alike functions call them in step
(`Host.Alike.callersInStep`), by induction on the depth of calls.

What a malformed call comes to is left open here (`Report`): the runs that are compared
may differ in that.
-/

namespace FieldScript

/-! ## reports -/

/-- What a malformed call comes to that is made at a place, given what is wrong with it
and the function's fallback value. -/
abbrev Report := Location → ArgumentError → Option Value → Exec Value

/-- Carries out the requests of a function with a report of malformed calls. -/
def Action.performReporting (report : Report) (clock : Nat → Reading) (call : Caller) :
    Action → Exec Value
  | .answer value => pure value
  | .raise e => throw (.error e)
  | .fail location cause => Exec.fail location cause []
  | .malformed site error fallback => report site error fallback
  | .run program next => do
    let outcome ← Exec.settle (program.run call)
    (next outcome).performReporting report clock call
  | .eval expr next => do
    let outcome ← Exec.settle (expr.eval call)
    (next outcome).performReporting report clock call
  | .call site fn args next => do
    let outcome ← Exec.settle (call site fn args)
    (next outcome).performReporting report clock call
  | .look next => do
    (next (← get).world.view).performReporting report clock call
  | .setField inst field value next => do
    Exec.emit (.fieldSet inst field value)
    next.performReporting report clock call
  | .readClock next => do
    let reading ← Exec.readClock clock
    (next reading).performReporting report clock call

/-- Calls a function with a report of malformed calls. -/
def Host.callReporting (report : Report) (h : Host) : (depth : Nat) → Caller
  | 0, _, _, _ => throw .tooDeep
  | depth + 1, site, ref, args => do
    let fn := (← Exec.store).fn ref
    Exec.inCall ⟨fn.name, site⟩ args.length
      ((h.routine fn.behaviour ⟨site, args⟩).performReporting report h.clock
        (h.callReporting report depth))

/-- With the language's own report, requests are carried out as they are. -/
theorem Action.performReporting_malformed (clock : Nat → Reading) (call : Caller)
    (action : Action) :
    action.performReporting Exec.malformed clock call = action.perform clock call := by
  induction action with
  | answer | raise | fail | malformed => rfl
  | run _ _ ih | eval _ _ ih | call _ _ _ _ ih | look _ ih | readClock _ ih =>
      simp only [performReporting, perform, ih]
  | setField _ _ _ _ ih => simp only [performReporting, perform, ih]

/-- The language's own report is the one that the policy decides. -/
theorem Host.callReporting_malformed (h : Host) (depth : Nat) :
    h.callReporting Exec.malformed depth = h.call depth := by
  induction depth with
  | zero => rfl
  | succ depth ih =>
      funext site ref args
      simp only [callReporting, call, ih, Action.performReporting_malformed]

/-! ## alike requests -/

section Relations

variable (L : Likeness)

structure View.Alike (v v' : View) : Prop where
  frames : v.toFrames.Alike L v'.toFrames
  store : v.store.Alike L v'.store

structure Call.Alike (c c' : Call) : Prop where
  site : c.site.Alike L c'.site
  args : List.Forall₂ (Located.Alike L) c.args c'.args

/-- A fallback value is shown alike: values do not differ at all, or this one holds no others. -/
def Likeness.ShowsAlike (fallback : Option Value) : Prop :=
  (∀ v v', L.value v v' → v = v') ∨ ∀ v ∈ fallback, v.type ≠ .inst

/-- Trees of requests that go on alike after alike replies. -/
inductive Action.Alike : Action → Action → Prop where
  | answer {v v' : Value} (hv : L.value v v') : Alike (.answer v) (.answer v')
  | raise {e e' : RuntimeError} (he : e.Alike L e') : Alike (.raise e) (.raise e')
  | fail {l l' : Location} (hl : l.Alike L l') (cause : Cause) :
      Alike (.fail l cause) (.fail l' cause)
  | malformed {l l' : Location} (hl : l.Alike L l') (error : ArgumentError)
      {fallback : Option Value} (hf : L.ShowsAlike fallback) :
      Alike (.malformed l error fallback) (.malformed l' error fallback)
  | run {p p' : Program} (hp : Instr.AlikeList L p p')
      {next next' : Except RuntimeError (Option Located) → Action}
      (hn : ∀ {o o'}, OutcomesAlike L (Option.Rel (Located.Alike L)) o o' →
        Alike (next o) (next' o')) : Alike (.run p next) (.run p' next')
  | eval {e e' : Expr} (he : e.Alike L e') {next next' : Except RuntimeError Value → Action}
      (hn : ∀ {o o'}, OutcomesAlike L L.value o o' → Alike (next o) (next' o')) :
      Alike (.eval e next) (.eval e' next')
  | call {l l' : Location} (hl : l.Alike L l') (fn : FunctionRef) {args args' : List Located}
      (ha : List.Forall₂ (Located.Alike L) args args')
      {next next' : Except RuntimeError Value → Action}
      (hn : ∀ {o o'}, OutcomesAlike L L.value o o' → Alike (next o) (next' o')) :
      Alike (.call l fn args next) (.call l' fn args' next')
  | look {next next' : View → Action}
      (hn : ∀ {v v'}, View.Alike L v v' → Alike (next v) (next' v')) :
      Alike (.look next) (.look next')
  | setField (inst : InstanceRef) (field : String) {v v' : Value} (hv : L.value v v')
      {next next' : Action} (hn : Alike next next') :
      Alike (.setField inst field v next) (.setField inst field v' next')
  | readClock {next next' : Reading → Action}
      (hn : ∀ reading, Alike (next reading) (next' reading)) :
      Alike (.readClock next) (.readClock next')

/-- The functions that exist are alike on both sides, and so is the clock. -/
structure Host.Alike (h h' : Host) : Prop where
  routine : ∀ {s : Store}, s.functions = L.functions → ∀ (ref : FunctionRef) {c c' : Call},
    c.Alike L c' →
      Action.Alike L (h.routine (s.fn ref).behaviour c) (h'.routine (s.fn ref).behaviour c')
  clock : h.clock = h'.clock

/-- Malformed calls come to the same on both sides. -/
def ReportsInStep (report report' : Report) : Prop :=
  ∀ ⦃site site' : Location⦄, site.Alike L site' → ∀ error fallback, L.ShowsAlike fallback →
    InStep L L.value (report site error fallback) (report' site' error fallback)

end Relations

variable {L : Likeness}

/-! ### functions that see no difference -/

section Exact

variable (hL : L.Exact) (hcalls : L.calls = true)

include hL hcalls

/-- What functions look at is the same where likeness is exact. -/
theorem View.Alike.eq {v v' : View} (h : v.Alike L v') : v = v' := by
  obtain ⟨⟨library, base, blocks, calls⟩, store⟩ := v
  obtain ⟨⟨library', base', blocks', calls'⟩, store'⟩ := v'
  obtain rfl : library = library' := h.frames.library.eq (Located.Alike.eq hL)
  obtain rfl : base = base' := h.frames.base.eq (Located.Alike.eq hL)
  obtain rfl : blocks = blocks' := eq_of_forall₂ (Scope.Alike.eq hL) h.frames.blocks
  obtain rfl : calls = calls' := eq_of_forall₂ (CallEntry.Alike.eq hL.range) (h.frames.calls hcalls)
  obtain rfl : store = store' := h.store.eq hL
  rfl

theorem Action.Alike.refl (action : Action) : action.Alike L action := by
  have hargs (args : List Located) : List.Forall₂ (Located.Alike L) args args :=
    List.forall₂_same.mpr fun v _ => .refl L v
  induction action with
  | answer value => exact .answer (L.value_refl value)
  | raise e =>
      exact .raise ⟨.refl L _, rfl, fun _ => List.forall₂_same.mpr fun c _ => .refl L c, .inl rfl⟩
  | fail location cause => exact .fail (.refl L _) cause
  | malformed site error fallback =>
      exact .malformed (.refl L _) error (.inl fun _ _ => hL.value)
  | run program next ih =>
      refine .run (.refl L program) fun ho => ?_
      rw [ho.eq hL hcalls (eq_of_rel (Located.Alike.eq hL))]
      exact ih _
  | eval expr next ih =>
      refine .eval (.refl L expr) fun ho => ?_
      rw [ho.eq hL hcalls hL.value]
      exact ih _
  | call site fn args next ih =>
      refine .call (.refl L site) fn (hargs args) fun ho => ?_
      rw [ho.eq hL hcalls hL.value]
      exact ih _
  | look next ih =>
      refine .look fun hv => ?_
      rw [hv.eq hL hcalls]
      exact ih _
  | setField inst field value next ih => exact .setField inst field (L.value_refl value) ih
  | readClock next ih => exact .readClock ih

/-- Where nothing that a function sees can differ, every host is like itself. -/
theorem Host.Alike.refl (h : Host) : h.Alike L h where
  routine {s} _ ref c c' hc := by
    have heq : c = c' := by
      cases c
      cases c'
      exact (Call.mk.injEq ..).mpr
        ⟨hc.site.eq hL.range, eq_of_forall₂ (Located.Alike.eq hL) hc.args⟩
    rw [heq]
    exact .refl hL hcalls _
  clock := rfl

end Exact

/-! ## functions in step -/

/-- The clock is read alike. -/
theorem inStep_readClock (clock : Nat → Reading) :
    InStep L Eq (Exec.readClock clock) (Exec.readClock clock) := by
  refine inStep_store_bind fun s s' hs => ?_
  refine (inStep_emit .clockRead).bind fun _ _ _ => ?_
  rw [hs.clockReads]
  exact inStep_pure rfl

theorem Likeness.showsAlike_none : L.ShowsAlike none := .inr nofun

theorem Likeness.showsAlike_some {value : Value} (h : value.type ≠ .inst) :
    L.ShowsAlike (some value) := by
  right
  rintro v ⟨⟩
  exact h

/-- A value that is shown alike has the same text in both stores. -/
theorem Likeness.ShowsAlike.text_eq {value : Value} (h : L.ShowsAlike (some value)) {s s' : Store}
    (hs : s.Alike L s') : s.text value = s'.text value := by
  obtain hvalues | htype := h
  · exact hs.text_eq (fun h => hvalues _ _ h) value
  · have hne := htype value rfl
    rw [Store.text_of_type_ne hne, Store.text_of_type_ne hne, hs.closedText_eq]

/-- Where the policies agree, so do malformed calls. -/
theorem reportsInStep_malformed (hp : ∀ {p p'}, L.policy p p' → p = p') :
    ReportsInStep L Exec.malformed Exec.malformed := by
  intro site site' hsite error fallback hf
  refine inStep_context_bind fun c c' hc => ?_
  rw [← hp hc.policy]
  cases c.policy with
  | raise => exact inStep_fail hsite _ _
  | fallback =>
      cases fallback with
      | none => exact inStep_fail hsite _ _
      | some value =>
          refine inStep_store_bind fun s s' hs => ?_
          rw [hf.text_eq hs]
          refine (inStep_emit (.fallbackUsed error _)).bind fun _ _ _ => ?_
          exact inStep_pure (L.value_refl value)

/-- If only answers are compared, the functions have to pass errors on. -/
def Likeness.Allows (L : Likeness) (action : Action) : Prop :=
  L.extent ≠ .answers ∨ action.Within .forwarding

/-- Alike requests are carried out in step. -/
theorem Action.Alike.inStep_perform {report report' : Report} (hr : ReportsInStep L report report')
    (clock : Nat → Reading) {call call' : Caller} (hcall : CallersInStep L call call')
    {action action' : Action} (h : action.Alike L action') (hw : L.Allows action) :
    InStep L L.value (action.performReporting report clock call)
      (action'.performReporting report' clock call') := by
  -- after an error that is passed on comes no answer
  have hpassed {α : Type} {next : Except RuntimeError α → Action}
      (hnext : ∀ e, next (.error e) = .raise e) (e : RuntimeError) (m : Machine) :
      ((next (.error e)).performReporting report clock call).ending m ≠ .done := by
    rw [hnext]
    exact nofun
  induction h with
  | answer hv => exact inStep_pure hv
  | raise he => exact inStep_throw (.error he)
  | fail hl cause => exact inStep_fail hl _ _
  | malformed hl error hf => exact hr hl error _ hf
  | run hp hn ih =>
      refine (Program.inStep_run hcall hp).settle_bind (fun o o' ho => ih ho ?_) ?_
      · exact hw.imp_right fun hw => hw.2.2 o
      · exact hw.imp_right fun hw => hpassed (hw.2.1 rfl)
  | eval he hn ih =>
      refine (Expr.inStep_eval hcall he).settle_bind (fun o o' ho => ih ho ?_) ?_
      · exact hw.imp_right fun hw => hw.2 o
      · exact hw.imp_right fun hw => hpassed (hw.1 rfl)
  | call hl fn ha hn ih =>
      refine (hcall fn hl ha).settle_bind (fun o o' ho => ih ho ?_) ?_
      · exact hw.imp_right fun hw => hw.2 o
      · exact hw.imp_right fun hw => hpassed (hw.1 rfl)
  | look hn ih =>
      refine inStep_get_bind fun m m' hm => ih ⟨hm.context.frames, hm.store⟩ ?_
      exact hw.imp_right fun hw => hw _
  | setField inst field hv hn ih =>
      exact (inStep_emit (.fieldSet inst field hv)).bind fun _ _ _ => ih hw
  | readClock hn ih =>
      refine (inStep_readClock clock).bind fun reading _ heq => ?_
      subst heq
      exact ih reading (hw.imp_right fun hw => hw reading)

/-! ## calls in step -/

/-- Hosts with alike functions call them in step.  The second may allow deeper calls
unless runs that are cut off are compared, too. -/
theorem Host.Alike.callersInStep {h h' : Host} (hh : h.Alike L h') {report report' : Report}
    (hr : ReportsInStep L report report')
    (hw : L.extent ≠ .answers ∨ ∀ s : Store, s.functions = L.functions → h.Within .forwarding s)
    {depth depth' : Nat} (hle : depth ≤ depth') (hall : L.extent = .all → depth = depth') :
    CallersInStep L (h.callReporting report depth) (h'.callReporting report' depth') := by
  induction depth generalizing depth' with
  | zero =>
      intro site site' ref args args' hsite hargs
      by_cases hextent : L.extent = .all
      · rw [← hall hextent]
        exact inStep_throw .tooDeep
      · exact inStep_of_uncovered fun m => Extent.not_covers_tooDeep hextent
  | succ depth ih =>
      intro site site' ref args args' hsite hargs
      obtain ⟨k, rfl⟩ : ∃ k, depth' = k + 1 := ⟨depth' - 1, by omega⟩
      have hcall := ih (Nat.le_of_succ_le_succ hle) fun he => Nat.succ.inj (hall he)
      refine inStep_store_bind fun s s' hs => ?_
      rw [← hs.fn_eq ref, ← hargs.length_eq, ← hh.clock]
      have hentry : CallEntry.Alike L ⟨(s.fn ref).name, site⟩ ⟨(s.fn ref).name, site'⟩ :=
        ⟨rfl, hsite⟩
      refine inStep_inCall hentry _ ?_
      have hallows : L.Allows (h.routine (s.fn ref).behaviour ⟨site, args⟩) :=
        hw.imp_right fun hw => hw s hs.functions ref _
      exact (hh.routine hs.functions ref ⟨hsite, hargs⟩).inStep_perform hr h.clock hcall hallows

/-- Where nothing that a function sees can differ, a host's calls are in step with
themselves. -/
theorem Host.callersInStep_self (hL : L.Exact) (hcalls : L.calls = true) (h : Host)
    {report report' : Report} (hr : ReportsInStep L report report')
    (hw : L.extent ≠ .answers ∨ ∀ s : Store, s.functions = L.functions → h.Within .forwarding s)
    (depth : Nat) :
    CallersInStep L (h.callReporting report depth) (h.callReporting report' depth) :=
  (Host.Alike.refl hL hcalls h).callersInStep hr hw (Nat.le_refl depth) fun _ => rfl

end FieldScript
