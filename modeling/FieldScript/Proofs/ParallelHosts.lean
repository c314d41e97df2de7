import FieldScript.Proofs.AlikeNatives
import FieldScript.Proofs.Parallel

/-!
# FieldScript.Proofs.ParallelHosts

Functions that run in parallel.

A function cannot tell references apart either: on calls that match it makes requests that
match, whatever it looks at and whatever comes back (`Action.Matches`).  It hands on only
what it was given or has come across (`Host.Matches`).  That is so of the language's own
functions and of those with which a host shows the language (`Host.matches_ofScripts`), and
then calls of functions are in parallel, by induction on their depth
(`Host.Matches.callersParallel`).
-/

namespace FieldScript

/-! ## functions -/

section Relations

/-- What functions look at. -/
structure View.Matches (Q : Pairing) (v v' : View) : Prop where
  frames : v.toFrames.Matches Q v'.toFrames
  store : v.store.Matches Q v'.store

structure Call.Matches (Q : Pairing) (c c' : Call) : Prop where
  site : c.site = c'.site
  args : MatchList Q c.args c'.args

/-- Trees of requests that match once these pairs exist, and go on matching after replies
that match. -/
inductive Action.Matches (P : Pairing) : Pairing → Action → Action → Prop where
  | answer {Q : Pairing} {v v' : Value} (hv : v.Matches Q v') :
      Matches P Q (.answer v) (.answer v')
  | raise {Q : Pairing} (e : RuntimeError) : Matches P Q (.raise e) (.raise e)
  | fail {Q : Pairing} (location : Location) (cause : Cause) :
      Matches P Q (.fail location cause) (.fail location cause)
  | malformed {Q : Pairing} (site : Location) (error : ArgumentError)
      {fallback fallback' : Option Value} (h : Option.Rel (Value.Matches Q) fallback fallback') :
      Matches P Q (.malformed site error fallback) (.malformed site error fallback')
  | run {Q : Pairing} (program : Program)
      {next next' : Except RuntimeError (Option Located) → Action}
      (hn : ∀ {Q' o o'}, Q ≤ Q' → Q' ≤ P → OutcomesMatch MatchOption Q' o o' →
        Matches P Q' (next o) (next' o')) : Matches P Q (.run program next) (.run program next')
  | eval {Q : Pairing} (expr : Expr) {next next' : Except RuntimeError Value → Action}
      (hn : ∀ {Q' o o'}, Q ≤ Q' → Q' ≤ P → OutcomesMatch Value.Matches Q' o o' →
        Matches P Q' (next o) (next' o')) : Matches P Q (.eval expr next) (.eval expr next')
  | call {Q : Pairing} (site : Location) {r r' : FunctionRef}
      (hr : Q.functions.rel r.index r'.index) {args args' : List Located}
      (ha : MatchList Q args args') {next next' : Except RuntimeError Value → Action}
      (hn : ∀ {Q' o o'}, Q ≤ Q' → Q' ≤ P → OutcomesMatch Value.Matches Q' o o' →
        Matches P Q' (next o) (next' o')) :
      Matches P Q (.call site r args next) (.call site r' args' next')
  | look {Q : Pairing} {next next' : View → Action}
      (hn : ∀ {Q' v v'}, Q ≤ Q' → Q' ≤ P → v.Matches Q' v' → Matches P Q' (next v) (next' v')) :
      Matches P Q (.look next) (.look next')
  | setField {Q : Pairing} {r r' : InstanceRef} (hr : Q.instances.rel r.index r'.index)
      (field : String) {v v' : Value} (hv : v.Matches Q v') {next next' : Action}
      (hn : ∀ {Q'}, Q ≤ Q' → Q' ≤ P → Matches P Q' next next') :
      Matches P Q (.setField r field v next) (.setField r' field v' next')
  | readClock {Q : Pairing} {next next' : Reading → Action}
      (hn : ∀ {Q'} reading, Q ≤ Q' → Q' ≤ P → Matches P Q' (next reading) (next' reading)) :
      Matches P Q (.readClock next) (.readClock next')

/-- Hosts whose functions match on calls that match, with clocks that go alike. -/
structure Host.Matches (P : Pairing) (h h' : Host) : Prop where
  embedded : ∀ {Q : Pairing} (key : String) {c c' : Call}, Q ≤ P → c.Matches Q c' →
    Action.Matches P Q (h.embedded key c) (h'.embedded key c')
  clock : ∀ {n n' : Nat}, P.readings n n' → h.clock n = h'.clock n'

end Relations

section Performing

variable {P Q : Pairing}

/-- Pairs that do not all belong to the whole never exist. -/
theorem parallel_of_le {α β : Type} {R : Pairing → α → β → Prop} {x : Exec α} {y : Exec β}
    (h : Q ≤ P → Parallel P Q R x y) : Parallel P Q R x y := by
  intro m m' hm hq
  exact h (le_trans hq (P.upTo_le _ _)) hm hq

/-- A malformed call fails on both sides, or is answered with fallback values that match. -/
theorem parallel_malformed (site : Location) (error : ArgumentError)
    {fallback fallback' : Option Value} (h : Option.Rel (Value.Matches Q) fallback fallback') :
    Parallel P Q Value.Matches (Exec.malformed site error fallback)
      (Exec.malformed site error fallback') := by
  refine parallel_context_bind fun c c' hle hc => ?_
  rw [← hc.policy]
  cases c.policy with
  | raise => exact parallel_fail _ _ _
  | fallback =>
      cases h with
      | none => exact parallel_fail _ _ _
      | some hv =>
          refine parallel_store_bind fun s s' hle' hs => ?_
          have hv := (hv.mono hle).mono hle'
          rw [hs.text_eq hv]
          refine (parallel_emit (.fallbackUsed error _)).bind fun _ _ hle _ => ?_
          exact parallel_pure fun hle' => (hv.mono hle).mono hle'

/-- Clocks that are to be read the same give the same reading. -/
theorem parallel_readClock {clock clock' : Nat → Reading}
    (h : ∀ {n n'}, P.readings n n' → clock n = clock' n') :
    Parallel P Q Pairing.Same (Exec.readClock clock) (Exec.readClock clock') := by
  intro m m' hm _
  have hproceeds : Proceeds P m m' (m.after .clockRead) (m'.after .clockRead) :=
    ⟨[.clockRead], [.clockRead], rfl, rfl, .cons .nil .clockRead⟩
  exact .answered hproceeds (h hm.store.ahead.readings)

/-- Matching actions are performed in parallel, by the structure of the first. -/
theorem Action.Matches.parallel_perform {clock clock' : Nat → Reading}
    (hclock : ∀ {n n'}, P.readings n n' → clock n = clock' n') {call call' : Caller}
    (hcall : CallersParallel P call call') {action action' : Action}
    (h : action.Matches P Q action') :
    Parallel P Q Value.Matches (action.perform clock call) (action'.perform clock' call') := by
  induction h with
  | answer hv => exact parallel_pure fun hle => hv.mono hle
  | raise e => exact parallel_throw _
  | fail location cause => exact parallel_fail _ _ _
  | malformed site error hf => exact parallel_malformed site error hf
  | run program hn ih =>
      refine (Program.parallel_run hcall program).settle.bind fun _ _ hle ho => ?_
      exact parallel_of_le fun hP => ih hle hP ho
  | eval expr hn ih =>
      refine (expr.parallel_eval hcall).settle.bind fun _ _ hle ho => ?_
      exact parallel_of_le fun hP => ih hle hP ho
  | call site hr ha hn ih =>
      refine (hcall site hr ha).settle.bind fun _ _ hle ho => ?_
      exact parallel_of_le fun hP => ih hle hP ho
  | look hn ih =>
      refine parallel_get_bind fun m m' hle hm => ?_
      exact parallel_of_le fun hP => ih hle hP ⟨hm.context.frames, hm.store⟩
  | setField hr field hv hn ih =>
      refine (parallel_emit (.fieldSet hr field hv)).bind fun _ _ hle _ => ?_
      exact parallel_of_le fun hP => ih hle hP
  | readClock hn ih =>
      refine (parallel_readClock hclock).bind fun reading reading' hle heq => ?_
      obtain rfl : reading = reading' := heq
      exact parallel_of_le fun hP => ih reading hle hP

end Performing

/-! ## declared functions -/

/-- Suitable arguments of calls that match. -/
abbrev Args.Matches (Q : Pairing) : (types : List ValueType) → Args types → Args types → Prop :=
  Args.Related (Value.Matches Q) Eq

section Arguments

variable {P Q : Pairing}

/-- A declared function matches itself if its body does, and if what it may answer on
malformed calls refers to nothing. -/
theorem Declaration.matches_routine {d : Declaration}
    (hf : ∀ Q : Pairing, Option.Rel (Value.Matches Q) d.fallback d.fallback)
    (hbody : ∀ {Q : Pairing} (site : Location) {args args' : Args (d.params.map (·.type))},
      Q ≤ P → Args.Matches Q _ args args' →
        Action.Matches P Q (d.body site args) (d.body site args'))
    {c c' : Call} (hle : Q ≤ P) (hc : c.Matches Q c') :
    Action.Matches P Q (d.routine c) (d.routine c') := by
  have hparse : ParsesRelated (Value.Matches Q) Eq (d.params.map (·.type)) _ _ :=
    parseArgs_related Value.Matches.type_eq d.name _
      (hc.args.imp fun _ _ hv => ⟨hv.value, hv.origin⟩)
  unfold routine
  rw [hc.site]
  generalize parseArgs d.name _ c.args = parsed at hparse
  generalize parseArgs d.name _ c'.args = parsed' at hparse
  cases hparse with
  | ok hargs => exact hbody _ hle hargs
  | error error => exact .malformed _ error (hf Q)

end Arguments

/-! ## the library's functions and the host's -/

section

variable {Q : Pairing}

/-- Texts match only themselves. -/
theorem Value.Matches.string_eq {s s' : String} (h : Value.Matches Q (.string s) (.string s')) :
    s = s' := by
  cases h
  rfl

/-- Classes match only if their references are paired. -/
theorem Value.Matches.cls_rel {r r' : ClassRef} (h : Value.Matches Q (.cls r) (.cls r')) :
    Q.classes.rel r.index r'.index := by
  cases h with
  | cls hr => exact hr

/-- Instances match only if their references are paired. -/
theorem Value.Matches.inst_rel {r r' : InstanceRef} (h : Value.Matches Q (.inst r) (.inst r')) :
    Q.instances.rel r.index r'.index := by
  cases h with
  | inst hr => exact hr

end

namespace Library

/-- A result that is missing on both sides is null on both. -/
theorem matches_valueOrNull {Q : Pairing} {v v' : Option Located} (h : MatchOption Q v v') :
    (valueOrNull v).Matches Q (valueOrNull v') := by
  cases h with
  | some hv => exact hv.value
  | none => exact .null

section

variable {P Q : Pairing} (hle : Q ≤ P) {c c' : Call} (hc : c.Matches Q c')

include hle hc

theorem matches_clock : Action.Matches P Q (clock.routine c) (clock.routine c') := by
  refine Declaration.matches_routine (fun _ => .none)
    (fun site _ _ _ _ => .readClock fun reading _ _ => ?_) hle hc
  cases reading with
  | seconds value => exact .answer (.float value)
  | beforeEpoch => exact .fail _ _

/-- Paired instances have the same fields, so the answer is the same. -/
theorem matches_hasField : Action.Matches P Q (hasField.routine c) (hasField.routine c') := by
  refine Declaration.matches_routine (fun _ => .some (.bool false))
    (fun {_} _ args args' _ hargs => ?_) hle hc
  obtain ⟨⟨ref, _⟩, ⟨field, _⟩, _⟩ := args
  obtain ⟨⟨ref', _⟩, ⟨field', _⟩, _⟩ := args'
  obtain ⟨hinst, -, hfield, -⟩ := hargs
  obtain rfl : field = field' := Value.Matches.string_eq hfield
  refine .look fun {_ v v'} hle _ hv => ?_
  have hsame : (v.store.inst ref).hasField field = (v'.store.inst ref').hasField field :=
    (hv.store.inst (hle.instances hinst.inst_rel)).fields.contains_eq field
  show Action.Matches P _ (.answer (.bool ((v.store.inst ref).hasField field)))
    (.answer (.bool ((v'.store.inst ref').hasField field)))
  rw [hsame]
  exact .answer (.bool _)

/-- The message is a text, so both calls fail with the same one. -/
theorem matches_fail : Action.Matches P Q (fail.routine c) (fail.routine c') := by
  refine Declaration.matches_routine (fun _ => .none) (fun {_} _ args args' _ hargs => ?_) hle hc
  obtain ⟨⟨message, _⟩, _⟩ := args
  obtain ⟨⟨message', _⟩, _⟩ := args'
  obtain rfl : message = message' := Value.Matches.string_eq hargs.1
  exact .fail _ _

/-- Of classes and instances only names and the number of fields are shown. -/
theorem matches_probe : Action.Matches P Q (probe.routine c) (probe.routine c') := by
  refine Declaration.matches_routine (fun _ => .some (.string "fallback"))
    (fun {_} _ args args' _ hargs => ?_) hle hc
  obtain ⟨⟨_, nAt⟩, ⟨b, bAt⟩, ⟨i, iAt⟩, ⟨f, fAt⟩, ⟨s, sAt⟩, ⟨cls, cAt⟩, ⟨o, oAt⟩, _⟩ := args
  obtain ⟨⟨_, _⟩, ⟨b', _⟩, ⟨i', _⟩, ⟨f', _⟩, ⟨s', _⟩, ⟨cls', _⟩, ⟨o', _⟩, _⟩ := args'
  obtain ⟨-, rfl, hb, rfl, hi, rfl, hf, rfl, hs, rfl, hcls, rfl, ho, rfl, -⟩ := hargs
  obtain rfl : b = b' := by cases hb; rfl
  obtain rfl : i = i' := by cases hi; rfl
  obtain rfl : f = f' := by cases hf; rfl
  obtain rfl : s = s' := hs.string_eq
  refine .look fun {_ v v'} hle _ hv => ?_
  have hname := hv.store.cls_eq (hle.classes hcls.cls_rel)
  have hof := hv.store.classOf_eq (hle.instances ho.inst_rel)
  have hsize : (v.store.inst o).fields.size = (v'.store.inst o').fields.size :=
    (hv.store.inst (hle.instances ho.inst_rel)).fields.length_eq
  simp only [hname, hof, hsize]
  exact .answer (.string _)

theorem matches_inspect : Action.Matches P Q (inspect.routine c) (inspect.routine c') := by
  refine Declaration.matches_routine (fun _ => .none)
    (fun site _ _ _ _ => .look fun {_ v v'} _ _ hv => ?_) hle hc
  have hcurrent := hv.frames.current
  have hnames : v.current.vars.names = v'.current.vars.names :=
    forall₂_iff_map_eq.mp (List.Forall₂.imp (fun _ _ hpq => hpq.1) hcurrent.vars)
  simp only [hnames, hcurrent.id, Frames.history, hv.frames.calls]
  exact .answer (.string _)

omit hle hc in
/-- What runs the program of a name runs the same one on both sides. -/
theorem matches_stored (scripts : Scripts) (site : Location) (name : String)
    {next : Except RuntimeError (Option Located) → Action}
    (hnext : ∀ {Q' o o'}, Q ≤ Q' → Q' ≤ P → OutcomesMatch MatchOption Q' o o' →
      Action.Matches P Q' (next o) (next o')) :
    Action.Matches P Q
      (match scripts name with
        | none => unknownScript site name
        | some program => .run program next)
      (match scripts name with
        | none => unknownScript site name
        | some program => .run program next) := by
  cases scripts name with
  | none => exact .fail _ _
  | some program => exact .run program hnext

/-- A script runs the same program on both sides, and its errors are passed on. -/
theorem matches_script (scripts : Scripts) :
    Action.Matches P Q ((script scripts).routine c) ((script scripts).routine c') := by
  refine Declaration.matches_routine (fun _ => .none) (fun {_} site args args' _ hargs => ?_) hle hc
  obtain ⟨⟨name, _⟩, _⟩ := args
  obtain ⟨⟨name', _⟩, _⟩ := args'
  obtain rfl : name = name' := Value.Matches.string_eq hargs.1
  refine matches_stored scripts site name fun _ _ ho => ?_
  cases ho with
  | ok hv => exact .answer (matches_valueOrNull hv)
  | error e => exact .raise e

/-- So does an attempt at a script, whose errors are turned into the same text. -/
theorem matches_attempt (scripts : Scripts) :
    Action.Matches P Q ((attempt scripts).routine c) ((attempt scripts).routine c') := by
  refine Declaration.matches_routine (fun _ => .none) (fun {_} site args args' _ hargs => ?_) hle hc
  obtain ⟨⟨name, _⟩, _⟩ := args
  obtain ⟨⟨name', _⟩, _⟩ := args'
  obtain rfl : name = name' := Value.Matches.string_eq hargs.1
  refine matches_stored scripts site name fun _ _ ho => ?_
  cases ho with
  | ok hv => exact .answer (matches_valueOrNull hv)
  | error e => exact .answer (.string _)

omit hle in
theorem matches_apply : Action.Matches P Q (applyRoutine c) (applyRoutine c') := by
  obtain ⟨site, args⟩ := c
  obtain ⟨site', args'⟩ := c'
  obtain ⟨rfl, hargs⟩ := hc
  cases hargs with
  | nil => exact .fail _ _
  | @cons arg arg' _ _ harg hrest =>
      obtain ⟨value, origin⟩ := arg
      obtain ⟨value', origin'⟩ := arg'
      obtain ⟨hvalue, -⟩ := harg
      cases hvalue with
      | fn href =>
          refine .call _ href hrest fun _ _ ho => ?_
          cases ho with
          | ok hv => exact .answer hv
          | error e => exact .raise e
      | null | bool | int | float | string | cls | inst => exact .fail _ _

theorem matches_embeddedRoutine (scripts : Scripts) (key : String) :
    Action.Matches P Q (embeddedRoutine scripts key c) (embeddedRoutine scripts key c') := by
  by_cases hkey : key ∈ ["apply", "fail", "probe", "inspect", "script", "attempt"]
  · simp only [List.mem_cons, List.not_mem_nil, or_false] at hkey
    obtain rfl | rfl | rfl | rfl | rfl | rfl := hkey
    · exact matches_apply hc
    · exact matches_fail hle hc
    · exact matches_probe hle hc
    · exact matches_inspect hle hc
    · exact matches_script hle hc scripts
    · exact matches_attempt hle hc scripts
  · rw [embeddedRoutine_of_not_mem scripts hkey]
    exact .answer .null

end

end Library

/-- The functions of the language and those with which a host shows it match themselves,
whatever is paired. -/
theorem Host.matches_ofScripts (scripts : Library.Scripts) {clock clock' : Nat → Reading}
    {P : Pairing} (hclock : ∀ {n n'}, P.readings n n' → clock n = clock' n') :
    (ofScripts scripts clock).Matches P (ofScripts scripts clock') where
  embedded key _ _ hle hc := Library.matches_embeddedRoutine hle hc scripts key
  clock := hclock

/-- Hosts that match act alike on matching calls of any function. -/
theorem Host.Matches.routine {P Q : Pairing} {h h' : Host} (hh : h.Matches P h') (hle : Q ≤ P)
    (behaviour : Behaviour) {c c' : Call} (hc : c.Matches Q c') :
    Action.Matches P Q (h.routine behaviour c) (h'.routine behaviour c') := by
  cases behaviour with
  | clock => exact Library.matches_clock hle hc
  | hasField => exact Library.matches_hasField hle hc
  | inert => exact .answer .null
  | embedded key => exact hh.embedded key hle hc

/-! ## calls -/

/-- Hosts whose functions match call them in parallel. -/
theorem Host.Matches.callersParallel {P : Pairing} {h h' : Host} (hh : h.Matches P h')
    (depth : Nat) : CallersParallel P (h.call depth) (h'.call depth) := by
  induction depth with
  | zero => exact fun _ _ _ _ _ _ _ => parallel_throw .tooDeep
  | succ depth ih =>
      intro Q site r r' args args' hr ha
      refine parallel_store_bind fun {Q'} s s' hle hs => ?_
      have hcall : Call.Matches Q' ⟨site, args⟩ ⟨site, args'⟩ := ⟨rfl, lasting_list.mono hle ha⟩
      rw [hs.fn_eq (hle.functions hr), ha.length_eq]
      refine Parallel.inCall lasting_value _ _ (parallel_of_le fun hP => ?_)
      exact (hh.routine hP _ hcall).parallel_perform hh.clock ih

end FieldScript
