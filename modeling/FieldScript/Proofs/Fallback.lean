import FieldScript.Proofs.AlikeHosts
import FieldScript.Proofs.Signature

/-!
# FieldScript.Proofs.Fallback

What the policy for malformed calls decides.

The policy is read in one place, the report of a malformed call, and it makes a
difference only if the function has a fallback value.  Both policies are compared with a
run that stops at the first such report (`Exec.refuse`): as long as there is none, the
three go in step, and the policy is all that differs between their worlds.

An error cannot be taken up where functions pass errors on.  So a program that succeeds
although malformed calls fail has made none, and it succeeds with fallback values as
well.
-/

namespace FieldScript

/-! ## runs without fallback values -/

/-- The report of a malformed call that stops everything if there is a fallback value. -/
def Exec.refuse : Report := fun site error fallback =>
  match fallback with
  | some _ => throw .tooDeep
  | none => Exec.fail site (.argument error) []

/-- The run of a program comes to an end, and no malformed call on its way is one of a
function with a fallback value: it would have been refused. -/
def Host.AvoidsFallbacks (h : Host) (depth : Nat) (program : Program) (w : World) : Prop :=
  (program.run (h.callReporting Exec.refuse depth)).ending ⟨w, []⟩ ≠ .tooDeep

/-- Without a fallback value, a malformed call fails under both policies. -/
theorem Exec.malformed_none (site : Location) (error : ArgumentError) :
    malformed site error none = Exec.fail site (.argument error) [] := by
  funext m
  rw [malformed, bind_run, context_run]
  dsimp only
  cases m.world.context.policy <;> rfl

/-- Until a fallback value is called for, refusing and reporting go in step. -/
theorem reportsInStep_refuse (policy : Policy → Policy → Prop) (functions : Array Function) :
    ReportsInStep (.strict policy true .ends functions) Exec.refuse Exec.malformed := by
  intro site site' hsite error fallback _
  cases fallback with
  | none =>
      rw [Exec.malformed_none]
      exact inStep_fail hsite _ _
  | some value => exact inStep_of_uncovered fun m => Extent.not_covers_tooDeep nofun

/-- A malformed call that fails gives no answer. -/
theorem reportsInStep_raise (functions : Array Function) :
    ReportsInStep (.strict (fun p p' => p = .raise ∧ p' = .fallback) true .answers functions)
      Exec.malformed Exec.malformed := by
  intro site site' hsite error fallback _ m m' hw hc
  have hpolicy : m.world.context.policy = .raise := hw.context.policy.1
  have hfails : Exec.malformed site error fallback m =
      .error (.error (m.world.context.error site (.argument error) [])) m := by
    rw [Exec.malformed, Exec.bind_run, Exec.context_run]
    dsimp only
    rw [hpolicy]
    rfl
  rw [Exec.ending_of_error hfails] at hc
  exact absurd hc id

/-! ## the same run with another policy -/

section Policies

variable {α : Type} {policy : Policy → Policy → Prop} {q : Policy}

/-- Computations in step where nothing but the policy differs have the same results. -/
theorem InStep.result_withPolicy {extent : Extent} {x y : Exec α} {w : World}
    (h : InStep (.strict policy true extent w.store.functions) Eq x y)
    (hp : policy w.context.policy q) (hq : ∀ {p p'}, policy p p' → p' = q)
    (hc : extent.Covers (x.ending ⟨w, []⟩)) :
    y.result (w.withPolicy q) = ((x.result w).1, (x.result w).2.withPolicy q) ∧
      y.journal (w.withPolicy q) = x.journal w := by
  have hL : (Likeness.strict policy true extent w.store.functions).Exact :=
    Likeness.exact_strict ..
  have hw : w.Alike (.strict policy true extent w.store.functions) (w.withPolicy q) :=
    w.alike_with w.context.calls q rfl hp fun _ => rfl
  obtain ⟨hresult, hworld, hjournal⟩ := h.result hw hc
  have hpolicy : (y.result (w.withPolicy q)).2.context.policy = q := hq hworld.context.policy
  have hlast := hworld.eq_withPolicy hL rfl
  rw [hpolicy] at hlast
  exact ⟨Prod.ext (hresult.eq hL rfl id).symm hlast,
    (eq_of_forall₂ (Event.Alike.eq hL rfl) hjournal).symm⟩

/-- Programs run in step with themselves if malformed calls are reported in step. -/
theorem Host.inStep_run_self {L : Likeness} (hL : L.Exact) (hcalls : L.calls = true) (h : Host)
    {report report' : Report} (hr : ReportsInStep L report report')
    (hw : L.extent ≠ .answers ∨ ∀ s : Store, s.functions = L.functions → h.Within .forwarding s)
    (depth : Nat) (program : Program) :
    InStep L Eq (program.run (h.callReporting report depth))
      (program.run (h.callReporting report' depth)) := by
  have hcallers := h.callersInStep_self hL hcalls hr hw depth
  exact (Program.inStep_run hcallers (.refl L program)).mono (eq_of_rel (Located.Alike.eq hL))

variable {h : Host} {depth : Nat} {program : Program} {w : World}

/-- As long as nothing is refused, a run is the same whatever the policy is. -/
theorem Host.AvoidsFallbacks.result_eq (ha : h.AvoidsFallbacks depth program w) (q : Policy) :
    let refusing := program.run (h.callReporting Exec.refuse depth)
    (h.run depth program).result (w.withPolicy q) =
        ((refusing.result w).1, (refusing.result w).2.withPolicy q) ∧
      (h.run depth program).journal (w.withPolicy q) = refusing.journal w := by
  intro refusing
  have hstep := h.inStep_run_self (Likeness.exact_strict ..) rfl
    (reportsInStep_refuse (fun _ p' => p' = q) w.store.functions) (.inl nofun) depth program
  rw [h.callReporting_malformed] at hstep
  exact hstep.result_withPolicy rfl id (Extent.covers_ends ha)

/-- Where functions pass errors on, a program that succeeds although malformed calls fail
succeeds as well if they do not. -/
theorem Host.Within.result_eq_of_ok (hw : h.Within .forwarding w.store)
    (hp : w.context.policy = .raise) (hend : (h.run depth program).ending ⟨w, []⟩ = .done) :
    (h.run depth program).result (w.withPolicy .fallback) =
        (((h.run depth program).result w).1,
          ((h.run depth program).result w).2.withPolicy .fallback) ∧
      (h.run depth program).journal (w.withPolicy .fallback) =
        (h.run depth program).journal w := by
  have hstep := h.inStep_run_self (Likeness.exact_strict ..) rfl
    (reportsInStep_raise w.store.functions) (.inr fun _ => hw.of_functions) depth program
  rw [h.callReporting_malformed] at hstep
  exact hstep.result_withPolicy ⟨hp, rfl⟩ (·.2) (hend ▸ Extent.covers_done)

end Policies

/-! ## what programs fail with -/

section Failures

variable {α β : Type} {fns : Array Function}

/-- Where malformed calls fall back and these functions exist, the computation fails with
no other causes than these. -/
def FailsWith (fns : Array Function) (C : Cause → Prop) (x : Exec α) : Prop :=
  Traced .all fns x ∧ ∀ m : Machine, m.world.store.functions = fns →
    m.world.context.policy = .fallback → ∀ e, x.ending m = .failed e → C e.cause

/-- Nothing that happens changes the policy. -/
theorem Leads.policy {p : Powers} {m m' : Machine} {ending : Ending} (h : Leads p m ending m') :
    m'.world.context.policy = m.world.context.policy := by
  obtain ⟨events, rfl, _⟩ := h
  exact (m.world.settings_afterAll events).1

variable {C : Cause → Prop}

/-- A computation that fails with these causes in whatever machine. -/
theorem failsWith_of_ending {x : Exec α} (hx : Traced .all fns x)
    (h : ∀ m e, x.ending m = .failed e → C e.cause) : FailsWith fns C x := by
  refine ⟨hx, ?_⟩
  intro m _ _ e he
  exact h m e he

/-- A computation that does not fail. -/
theorem failsWith_of_never {x : Exec α} (hx : Traced .all fns x)
    (h : ∀ m e, x.ending m ≠ .failed e) : FailsWith fns C x := by
  refine failsWith_of_ending hx ?_
  intro m e he
  exact absurd he (h m e)

/-- A sequence fails with the causes of its parts. -/
theorem FailsWith.bind {x : Exec α} {f : α → Exec β} (hx : FailsWith fns C x)
    (hf : ∀ a, FailsWith fns C (f a)) : FailsWith fns C (x >>= f) := by
  refine ⟨hx.1.bind fun a => (hf a).1, fun m hm hp e he => ?_⟩
  have hlead := hx.1 m hm
  rw [Exec.ending, Exec.bind_run] at he
  cases hrun : x m with
  | ok a m' =>
      rw [hrun] at he
      rw [Exec.final_of_ok hrun] at hlead
      exact (hf a).2 m' (hlead.functions.trans hm) (hlead.policy.trans hp) e he
  | error stop m' =>
      rw [hrun] at he
      exact hx.2 m hm hp e ((Exec.ending_of_error hrun).trans he)

/-- A block adds no cause of its own. -/
theorem FailsWith.inBlock {x : Exec α} (hx : FailsWith fns C x) :
    FailsWith fns C (Exec.inBlock x) := by
  refine ⟨traced_inBlock hx.1, fun m hm hp e he => ?_⟩
  have hinner := hx.2 (m.after .blockEntered) hm hp
  obtain ⟨outcome, hend, _, hrun⟩ | ⟨outcome, _, _, hrun⟩ | ⟨stop, hend, _, hrun⟩ :=
    Exec.inBlock_cases x m
  · rw [Exec.ending_of_run hrun, Exec.ending_resume, ← hend] at he
    exact hinner e he
  · rw [Exec.ending_of_error hrun] at he
    cases he
  · rw [Exec.ending_of_error hrun, ← hend] at he
    exact hinner e he

/-- Entering and leaving a call add no cause of their own. -/
theorem FailsWith.inCall {x : Exec α} (hx : FailsWith fns C x) (entry : CallEntry) (args : Nat) :
    FailsWith fns C (Exec.inCall entry args x) := by
  refine ⟨traced_inCall entry args hx.1, fun m hm hp e he => ?_⟩
  have hinner := hx.2 (m.after (.callEntered entry args)) hm hp
  obtain ⟨outcome, hend, hrun⟩ | ⟨stop, hend, _, hrun⟩ := Exec.inCall_cases entry args x m
  · rw [Exec.ending_of_run hrun, Exec.ending_resume, ← hend] at he
    exact hinner e he
  · rw [Exec.ending_of_error hrun, ← hend] at he
    exact hinner e he

/-- The causes hold of whatever the language itself finds wrong: all but unsuitable
arguments, and of these a class that is given any. -/
structure Cause.OfLanguage (C : Cause → Prop) : Prop where
  other : ∀ cause, (∀ error, cause ≠ .argument error) → C cause
  noArguments : ∀ name got, C (.argument (.wrongArity name 0 got))

theorem sequential_failsWith (hC : Cause.OfLanguage C) : Sequential (FailsWith fns C) where
  pure a := failsWith_of_never (traced_pure a) fun _ _ => Ending.noConfusion
  fail location cause infos h := by
    refine failsWith_of_ending (traced_fail location cause infos) fun m e he => ?_
    cases he
    exact hC.other cause h
  context := failsWith_of_never sequential_traced.context fun _ _ => Ending.noConfusion
  bind := FailsWith.bind

theorem failsWith_store_bind {f : Store → Exec β}
    (hf : ∀ s : Store, s.functions = fns → FailsWith fns C (f s)) :
    FailsWith fns C (Exec.store >>= f) := by
  constructor
  · exact traced_store_bind fun s hs => (hf s hs).1
  · intro m hm
    exact (hf m.world.store hm).2 m hm

/-- Reading a field fails with causes of the language. -/
theorem failsWith_readField (hC : Cause.OfLanguage C) (target : Value) (range : Range)
    (field : Name) : FailsWith fns C (readField target range field) := by
  refine failsWith_of_ending (traced_readField target range field) fun m e he => ?_
  cases target with
  | inst ref =>
      rw [Exec.ending, readField_run] at he
      cases hf : m.world.store.field? ref field.text with
      | some value => simp [hf] at he
      | none =>
          simp only [hf, Stop.ending, Ending.failed.injEq] at he
          subst he
          exact hC.other _ fun _ => Cause.noConfusion
  | null | bool | int | float | string | cls | fn =>
      cases he
      exact hC.other _ fun _ => Cause.noConfusion

/-- Calling a class fails with causes of the language. -/
theorem failsWith_instantiate (hC : Cause.OfLanguage C) (range : Range) (cls : ClassRef)
    (args : List Located) : FailsWith fns C (instantiate range cls args) := by
  refine failsWith_of_ending (traced_instantiate range cls args) fun m e he => ?_
  cases args with
  | cons arg rest =>
      cases he
      exact hC.noArguments _ _
  | nil => cases he

/-- Assigning a variable fails with causes of the language. -/
theorem failsWith_assignVariable (hC : Cause.OfLanguage C) (name : Name) (value : Located) :
    FailsWith fns C (assignVariable name value) := by
  refine (sequential_failsWith hC).bind (sequential_failsWith hC).context fun c => ?_
  cases c.assign name.text value with
  | done _ => exact failsWith_of_never (traced_emit _) fun _ _ => Ending.noConfusion
  | libraryItem | unbound => exact (sequential_failsWith hC).fail _ _ _ nofun

/-- Programs fail with causes of the language, and with those of the functions they call. -/
theorem executive_failsWith (hC : Cause.OfLanguage C) {call : Caller}
    (hcall : ∀ site ref args, FailsWith fns C (call site ref args)) :
    Executive (FailsWith fns C) call where
  toSequential := sequential_failsWith hC
  read := failsWith_readField hC
  make := failsWith_instantiate hC
  call := hcall
  declare _ _ := failsWith_of_never (traced_emit _) fun _ _ => Ending.noConfusion
  assign := failsWith_assignVariable hC
  write target range field value :=
    ((sequential_failsWith hC).expectInstance target range).bind fun _ =>
      failsWith_of_never (traced_emit _) fun _ _ => Ending.noConfusion
  declareClass name := failsWith_of_never (traced_declareClass name) fun _ _ => Ending.noConfusion
  inBlock := FailsWith.inBlock

/-! ### the library's functions -/

/-- A malformed call of the function can be to blame for this. -/
def Declaration.Blamed (d : Declaration) (cause : Cause) : Prop :=
  ∃ args error, parseArgs d.name (d.params.map (·.type)) args = .error error ∧
    cause = .argument error

/-- Only a function without parameters finds arguments where it expects none. -/
theorem FirstFault.types_eq_nil {fn : String} {types : List ValueType} {args : List Located}
    {name : String} {got : Nat} (h : FirstFault fn types args (.wrongArity name 0 got)) :
    types = [] := by
  generalize hfault : ArgumentError.wrongArity name 0 got = error at h
  cases h with
  | arity h =>
      injection hfault with _ hlength
      exact List.length_eq_zero_iff.mp hlength.symm
  | type => cases hfault

/-- For a function without parameters, all that can be wrong is the number of arguments. -/
theorem FirstFault.eq_wrongArity {fn : String} {args : List Located} {error : ArgumentError}
    (h : FirstFault fn [] args error) : error = .wrongArity fn 0 args.length := by
  cases h with
  | arity h => rfl
  | type _ htype => cases htype

theorem Cause.ofLanguage_not_hasField : Cause.OfLanguage (¬ Library.hasField.Blamed ·) where
  other cause h := fun ⟨args, error, _, hcause⟩ => h error hcause
  noArguments name got := by
    rintro ⟨args, error, hparse, hcause⟩
    cases hcause
    cases (firstFault_of_parseArgs hparse).types_eq_nil

/-- A malformed call of a function without a fallback value fails, and others answer. -/
theorem failsWith_malformed (site : Location) (error : ArgumentError) {fallback : Option Value}
    (h : fallback = none → C (.argument error)) :
    FailsWith fns C (Exec.malformed site error fallback) := by
  refine ⟨traced_malformed site error fallback, fun m _ hp e he => ?_⟩
  cases fallback with
  | none =>
      rw [Exec.malformed_none] at he
      cases he
      exact h rfl
  | some value =>
      rw [Exec.ending, Exec.malformed, Exec.bind_run, Exec.context_run] at he
      dsimp only at he
      rw [hp] at he
      cases he

/-- A declared function fails with the causes of its body, and if it has no fallback value with
those of its arguments. -/
theorem Declaration.failsWith_routine (d : Declaration) {clock : Nat → Reading} {caller : Caller}
    (hd : d.fallback = none → ∀ cause, d.Blamed cause → C cause)
    (hbody : ∀ site args, FailsWith fns C ((d.body site args).perform clock caller))
    (call : Call) : FailsWith fns C ((d.routine call).perform clock caller) := by
  unfold routine
  split
  · exact hbody _ _
  · next error hparse =>
      exact failsWith_malformed _ _ fun hnone => hd hnone _ ⟨_, error, hparse, rfl⟩

/-- With fallback values, the library's functions fail as the language does: what is left
are arguments for `clock`, which takes none. -/
theorem Store.OwnOnly.failsWith_call {s : Store} (hs : s.OwnOnly) (hC : Cause.OfLanguage C)
    (h : Host) (depth : Nat) (site : Location) (ref : FunctionRef) (args : List Located) :
    FailsWith s.functions C (h.call depth site ref args) := by
  cases depth with
  | zero => exact failsWith_of_never traced_tooDeep fun _ _ => Ending.noConfusion
  | succ depth =>
      refine failsWith_store_bind fun s' hs' => FailsWith.inCall ?_ _ _
      rw [Store.fn_of_functions hs']
      have hclock (call : Call) : FailsWith s.functions C
          ((Library.clock.routine call).perform h.clock (h.call depth)) := by
        refine Library.clock.failsWith_routine (fun _ cause hcause => ?_) (fun site _ => ?_) call
        · obtain ⟨args, error, hparse, rfl⟩ := hcause
          rw [(firstFault_of_parseArgs hparse).eq_wrongArity]
          exact hC.noArguments _ _
        · have hread : FailsWith s.functions C (Exec.readClock h.clock) :=
            failsWith_of_never (traced_readClock h.clock) fun _ _ => Ending.noConfusion
          refine hread.bind fun reading => ?_
          cases reading with
          | seconds value => exact (sequential_failsWith hC).pure _
          | beforeEpoch => exact (sequential_failsWith hC).fail _ _ _ fun _ => Cause.noConfusion
      have hhasField (call : Call) : FailsWith s.functions C
          ((Library.hasField.routine call).perform h.clock (h.call depth)) := by
        refine Library.hasField.failsWith_routine (absurd · (Option.some_ne_none _)) ?_ call
        intro site _
        exact failsWith_of_never (traced_get_bind fun _ => traced_pure _) fun _ _ =>
          Ending.noConfusion
      obtain hmem | hnone := s.fn_mem_or ref
      · obtain hb | hb := hs _ hmem
        · rw [hb]
          exact hclock _
        · rw [hb]
          exact hhasField _
      · rw [hnone]
        exact (sequential_failsWith hC).pure _

end Failures

/-! ## both policies -/

/-- The policy for malformed calls matters at malformed calls alone: a program that makes
none of a function with a fallback value comes to the same under both policies, with the
same events, and leaves worlds that differ in the policy only.  With the language's own
library, whatever succeeds although malformed calls fail succeeds with fallback values,
too, with the same value and final state; and with fallback values no program fails as a
malformed call of `hasField` would. -/
theorem Host.policies_agree (h : Host) (depth : Nat) (program : Program) (w : World) :
    let run := h.run depth program
    let raising := w.withPolicy .raise
    let falling := w.withPolicy .fallback
    let Agree := run.result falling =
        ((run.result raising).1, (run.result raising).2.withPolicy .fallback) ∧
      run.journal falling = run.journal raising
    (h.AvoidsFallbacks depth program raising → Agree) ∧
      (w.store.OwnOnly →
        (∀ value last, run.result raising = (.ok value, last) → Agree) ∧
          ∀ e, run.ending ⟨falling, []⟩ = .failed e → ¬ Library.hasField.Blamed e.cause) := by
  intro run raising falling Agree
  refine ⟨fun ha => ?_, fun hown => ⟨fun value last hok => ?_, fun e he => ?_⟩⟩
  · obtain ⟨hraise, hraised⟩ := ha.result_eq .raise
    obtain ⟨hfall, hfell⟩ := ha.result_eq .fallback
    have hsame : raising.withPolicy .raise = raising := rfl
    rw [hsame] at hraise hraised
    constructor
    · rw [hraise]
      exact hfall
    · exact hfell.trans hraised.symm
  · have hend : run.ending ⟨raising, []⟩ = .done := by rw [Exec.ending_of_result, hok]
    have hraising : raising.store.OwnOnly := hown
    exact (hraising.within h .forwarding).result_eq_of_ok rfl hend
  · have hC := Cause.ofLanguage_not_hasField
    have hbody := Instr.has_runList (executive_failsWith hC (hown.failsWith_call hC h depth)) none
      program
    have hsame : run.ending ⟨falling, []⟩ = (Instr.runList (h.call depth) none program).ending
        ((Machine.mk falling []).after (.programStarted program.length)) :=
      Program.ending_run (h.call depth) program _
    exact hbody.2 _ rfl rfl e (hsame.symm.trans he)

/-- Calls `hasField` with these arguments. -/
def callsHasField (args : List Expr) : Program :=
  [.classDecl .synthetic ⟨.synthetic, "A"⟩,
    .eval .synthetic <| .call .synthetic (.variable .synthetic ⟨.synthetic, "hasField"⟩)
      .synthetic args]

/-- A new instance and the name of a field. -/
def instanceAndField : List Expr :=
  [.call .synthetic (.variable .synthetic ⟨.synthetic, "A"⟩) .synthetic [],
    .literal .synthetic (.string "f")]

/-- With suitable arguments the policies agree; without arguments they do not, and then
the call is one that has a fallback value. -/
theorem policies_agree_callsHasField :
    let run := failingHost.run 1
    let w := worldWith []
    let no : Except Stop (Option Located) := .ok (some ⟨.bool false, .source .synthetic⟩)
    ((run (callsHasField instanceAndField)).result (w.withPolicy .fallback)).1 = no ∧
      (run (callsHasField instanceAndField)).journal (w.withPolicy .fallback) =
        (run (callsHasField instanceAndField)).journal (w.withPolicy .raise) ∧
      ((run (callsHasField [])).result (w.withPolicy .fallback)).1 = no ∧
      (run (callsHasField [])).ending ⟨w.withPolicy .raise, []⟩ ≠ .done ∧
      ¬ failingHost.AvoidsFallbacks 1 (callsHasField []) (w.withPolicy .raise) := by
  intro run w no
  have havoids : failingHost.AvoidsFallbacks 1 (callsHasField instanceAndField)
      (w.withPolicy .raise) := by
    unfold Host.AvoidsFallbacks
    decide +kernel
  have hrefused : ¬ failingHost.AvoidsFallbacks 1 (callsHasField []) (w.withPolicy .raise) := by
    unfold Host.AvoidsFallbacks
    decide +kernel
  obtain ⟨hresult, hjournal⟩ :=
    (failingHost.policies_agree 1 (callsHasField instanceAndField) w).1 havoids
  refine ⟨?_, hjournal, by decide +kernel, by decide +kernel, hrefused⟩
  rw [hresult]
  decide +kernel

end FieldScript
