import FieldScript.Proofs.Fallback
import FieldScript.Proofs.Signature
import FieldScript.Proofs.Unwinding

/-!
# FieldScript.Proofs.Faults

What errors are about.

With the language's own library, an error of a program comes from one of its constructs: a
variable that is read or assigned, a field that is read or written, a call, or an operand
that has to be a boolean.  `Construct.AtFault` says for each of them which errors it can be
to blame for, where they are located and what has to be true at that moment.

The moment is one of the run: all that happens after it is that blocks and calls are left
and the program is aborted, and as many blocks are being executed as there are around the
construct (`Host.Blames`).  Programs are followed by their syntax, from moment to moment.
-/

namespace FieldScript

/-! ## constructs -/

/-- A part of a program that can be to blame for an error. -/
inductive Construct where
  | read (name : Name)
  | assign (name : Name)
  | readField (target : Expr) (field : Name)
  | writeField (target value : Expr)
  | call (range : Range) (callee : Expr) (args : List Expr)
  /-- A condition or a negated operand. -/
  | test (operand : Expr)

mutual

/-- The constructs of an expression. -/
def Expr.constructs : Expr → List Construct
  | .literal _ _ => []
  | .variable _ name => [.read name]
  | .field _ target name => target.constructs ++ [.readField target name]
  | .call range callee _ args =>
    callee.constructs ++ (Expr.constructsOf args ++ [.call range callee args])
  | .not _ inner => inner.constructs ++ [.test inner]
  | .eq _ left right => left.constructs ++ right.constructs

def Expr.constructsOf : List Expr → List Construct
  | [] => []
  | e :: rest => e.constructs ++ Expr.constructsOf rest

end

/-- A construct of a program, and how many blocks there are around it. -/
structure Site where
  level : Nat
  construct : Construct

def Site.all (level : Nat) (constructs : List Construct) : List Site :=
  constructs.map (.mk level)

mutual

/-- The constructs of an instruction with this many blocks around it. -/
def Instr.sites (level : Nat) : Instr → List Site
  | .declare _ _ init => Site.all level init.constructs
  | .assign _ name expr => Site.all level (expr.constructs ++ [.assign name])
  | .setField _ target _ expr =>
    Site.all level (target.constructs ++ (expr.constructs ++ [.writeField target expr]))
  | .classDecl _ _ => []
  | .ifThen _ test body => Site.all level (test.constructs ++ [.test test]) ++ body.sites level
  | .ifElse _ test body otherwise =>
    Site.all level (test.constructs ++ [.test test]) ++ (body.sites level ++ otherwise.sites level)
  | .eval _ expr => Site.all level expr.constructs

def Block.sites (level : Nat) : Block → List Site
  | .mk _ instrs => Instr.sitesOf (level + 1) instrs

def Instr.sitesOf (level : Nat) : List Instr → List Site
  | [] => []
  | instr :: rest => instr.sites level ++ Instr.sitesOf level rest

end

/-! ## moments of a run -/

/-- Events have led from one machine to another. -/
def Machine.Leads (m m' : Machine) : Prop :=
  ∃ events, m' = ⟨m.world.afterAll events, events ++ m.journal⟩

namespace Machine

theorem Leads.rfl {m : Machine} : m.Leads m := ⟨[], Eq.refl _⟩

/-- Events lead on from where events have led. -/
theorem Leads.trans {a b c : Machine} (h : a.Leads b) (h' : b.Leads c) : a.Leads c := by
  obtain ⟨first, rfl⟩ := h
  obtain ⟨second, rfl⟩ := h'
  exact ⟨second ++ first, by rw [World.afterAll_append, List.append_assoc]⟩

/-- A single event leads to the machine after it. -/
theorem leads_after (m : Machine) (event : Event) : m.Leads (m.after event) :=
  ⟨[event], rfl⟩

end Machine

/-- An expression has just been evaluated to this value, in the course of a run. -/
def Expr.Came (call : Caller) (start now : Machine) (expr : Expr) (value : Value) : Prop :=
  ∃ m, start.Leads m ∧ expr.eval call m = .ok value now

/-- An expression has been evaluated to this value and another right after it. -/
def Expr.CameFirst (call : Caller) (start now : Machine) (expr second : Expr) (value : Value) :
    Prop :=
  ∃ m other, expr.Came call start m value ∧ second.eval call m = .ok other now

/-- An expression has been evaluated to this value and the arguments of its call right after
it. -/
def Expr.CameWith (call : Caller) (start now : Machine) (callee : Expr) (args : List Expr)
    (value : Value) (values : List Located) : Prop :=
  ∃ m, callee.Came call start m value ∧ Expr.evalList call args m = .ok values now

/-! ## faults -/

/-- A function of the library has this name and takes arguments of these types. -/
inductive Function.Takes (f : Function) : String → List ValueType → Prop where
  | clock (h : f.behaviour = .clock) :
      Takes f Library.clock.name (Library.clock.params.map (·.type))
  | hasField (h : f.behaviour = .hasField) :
      Takes f Library.hasField.name (Library.hasField.params.map (·.type))

/-- The error is right about the arguments of a function with this name that takes
arguments of these types. -/
def ArgumentError.Describes (name : String) (types : List ValueType) (args : List Located) :
    ArgumentError → Prop
  | .wrongArity fn expected got =>
    fn = name ∧ expected = types.length ∧ got = args.length ∧ expected ≠ got
  | .wrongType fn position expected found =>
    fn = name ∧ args.length = types.length ∧ expected ≠ found ∧
      ∃ index arg, position = index + 1 ∧ types[index]? = some expected ∧
        args[index]? = some arg ∧ arg.value.type = found

/-- The construct is to blame for an error at this range and with this cause. -/
inductive Construct.AtFault (call : Caller) (start now : Machine) :
    Construct → Range → Cause → List Info → Prop where
  /-- No alive scope binds the variable. -/
  | unboundRead {name : Name} (h : now.world.context.get? name.text = none) :
      AtFault call start now (.read name) name.range (.undefinedVariable name.text) []
  | unboundAssign {name : Name} (h : now.world.context.get? name.text = none) :
      AtFault call start now (.assign name) name.range (.undefinedVariable name.text) []
  /-- The library binds the name and no other alive scope does. -/
  | libraryItem {name : Name} (h : now.world.context.library.contains name.text = true)
      (hown : ∀ scope ∈ now.world.context.own, scope.vars.contains name.text = false) :
      AtFault call start now (.assign name) name.range (.libraryItemAssignment name.text)
        [⟨.tip, "declare a new variable instead to shadow the native item"⟩]
  /-- The target is an instance that does not have the field, which is noted. -/
  | missingField {target : Expr} {field : Name} {ref : InstanceRef} {before : Machine}
      (hv : target.Came call start before (.inst ref))
      (hnow : now = before.after (.fieldMissed ref (before.world.store.classOf ref) field))
      (hf : now.world.store.field? ref field.text = none) :
      AtFault call start now (.readField target field) field.range
        (.undefinedField (now.world.store.classOf ref).name field.text)
        (missingFieldInfos (now.world.store.classOf ref))
  | readTarget {target : Expr} {field : Name} {value : Value}
      (hv : target.Came call start now value) (ht : value.type ≠ .inst) :
      AtFault call start now (.readField target field) target.range (.notAnInstance value.type) []
  | writeTarget {target expr : Expr} {value : Value}
      (hv : target.CameFirst call start now expr value) (ht : value.type ≠ .inst) :
      AtFault call start now (.writeField target expr) target.range (.notAnInstance value.type) []
  | callee {range : Range} {callee : Expr} {args : List Expr} {value : Value}
      {values : List Located} (hv : callee.CameWith call start now args value values)
      (hfn : value.type ≠ .fn) (hcls : value.type ≠ .cls) :
      AtFault call start now (.call range callee args) callee.range (.notCallable value.type) []
  /-- A class is given arguments. -/
  | classArguments {range : Range} {callee : Expr} {args : List Expr} {ref : ClassRef}
      {values : List Located} (hv : callee.CameWith call start now args (.cls ref) values)
      (hne : args.length ≠ 0) :
      AtFault call start now (.call range callee args) range
        (.argument (.wrongArity (now.world.store.cls ref).name 0 args.length)) []
  /-- The arguments do not suit the function, which has been entered. -/
  | arguments {range : Range} {callee : Expr} {args : List Expr} {ref : FunctionRef}
      {values : List Located} {name : String} {types : List ValueType} {error : ArgumentError}
      {entry : CallEntry} {before : Machine}
      (hv : callee.CameWith call start before args (.fn ref) values)
      (hlength : values.length = args.length)
      (hnow : now = before.after (.callEntered entry args.length))
      (ht : (now.world.store.fn ref).Takes name types) (he : error.Describes name types values) :
      AtFault call start now (.call range callee args) range (.argument error) []
  | operand {operand : Expr} {value : Value} (hv : operand.Came call start now value)
      (ht : value.type ≠ .bool) :
      AtFault call start now (.test operand) operand.range (.notABoolean value.type) []

/-- An error that comes out at the last machine arose at a moment of the run at which one of
these constructs, with so many blocks around it, was to blame. -/
def Blames (call : Caller) (start last : Machine) (sites : List Site) (e : RuntimeError) : Prop :=
  ∃ site ∈ sites, ∃ now range cause infos, start.Leads now ∧
    (∃ later : List Event, (∀ event ∈ later, event.Unwinds e) ∧
      last = ⟨now.world.afterAll later, later ++ now.journal⟩) ∧
    now.world.context.blocks.length = site.level ∧
    site.construct.AtFault call start now range cause infos ∧
    e = now.world.context.error (.source range) cause infos

section

variable {α β : Type} {call : Caller} {fns : Array Function} {start : Machine} {level : Nat}

/-- More constructs may be to blame. -/
theorem Blames.mono {last : Machine} {sites sites' : List Site} {e : RuntimeError}
    (h : Blames call start last sites e) (hsub : sites ⊆ sites') :
    Blames call start last sites' e := by
  obtain ⟨site, hmem, h⟩ := h
  exact ⟨site, hsub hmem, h⟩

/-- On the way out nothing changes what was to blame. -/
theorem Blames.after {last : Machine} {sites : List Site} {e : RuntimeError} {event : Event}
    (h : Blames call start last sites e) (he : event.Unwinds e) :
    Blames call start (last.after event) sites e := by
  obtain ⟨site, hmem, now, range, cause, infos, hlead, ⟨later, hlater, rfl⟩, h⟩ := h
  refine ⟨site, hmem, now, range, cause, infos, hlead, ⟨event :: later, ?_, rfl⟩, h⟩
  intro event' hmem'
  obtain rfl | hmem' := List.mem_cons.mp hmem'
  · exact he
  · exact hlater event' hmem'

/-! ## from moment to moment -/

/-- A moment of a run that starts where these functions exist, with so many blocks being
executed. -/
structure Machine.At (m : Machine) (fns : Array Function) (start : Machine) (level : Nat) :
    Prop where
  lead : start.Leads m
  functions : m.world.store.functions = fns
  level : m.world.context.blocks.length = level

/-- A traced computation leads on by events. -/
theorem Leads.leads {p : Powers} {m m' : Machine} {ending : Ending} (h : Leads p m ending m') :
    m.Leads m' := by
  obtain ⟨events, rfl, _⟩ := h
  exact ⟨events, rfl⟩

/-- Where functions run no programs, what succeeds leaves as many blocks as there were. -/
theorem Traced.next {x : Exec α} (hx : Traced .programless fns x) {m m' : Machine} {a : α}
    (hm : m.At fns start level) (hrun : x m = .ok a m') :
    m'.At fns start level ∧ m.Leads m' := by
  have hlead := hx m hm.functions
  rw [Exec.ending_of_ok hrun, Exec.final_of_ok hrun] at hlead
  refine ⟨⟨hm.lead.trans hlead.leads, hlead.functions.trans hm.functions, ?_⟩, hlead.leads⟩
  obtain ⟨events, rfl, ht⟩ := hlead
  obtain ⟨_, hids, _⟩ | ⟨ha, _⟩ := ht.alive.1 trivial
  · rw [← hm.level, ← List.length_map, hids, List.length_map]
  · exact absurd ha (ht.not_aborts rfl)

/-- Wherever the computation fails that starts at this moment, one of these constructs is to
blame. -/
def BlamedOn (call : Caller) (start : Machine) (sites : List Site) (x : Exec α) (m : Machine) :
    Prop :=
  ∀ e, x.ending m = .failed e → Blames call start (x.final m) sites e

/-- More constructs may be to blame. -/
theorem BlamedOn.mono {sites sites' : List Site} {x : Exec α} {m : Machine}
    (h : BlamedOn call start sites x m) (hsub : sites ⊆ sites') :
    BlamedOn call start sites' x m := by
  intro e he
  exact (h e he).mono hsub

/-- Nothing is to blame where nothing fails. -/
theorem blamedOn_of_never {sites : List Site} {x : Exec α} {m : Machine}
    (h : ∀ e, x.ending m ≠ .failed e) : BlamedOn call start sites x m := by
  intro e he
  exact absurd he (h e)

/-- Computations that run in the same way have the same things to blame. -/
theorem BlamedOn.of_run {sites : List Site} {x y : Exec α} {m : Machine}
    (hy : BlamedOn call start sites y m) (hrun : x m = y m) : BlamedOn call start sites x m := by
  intro e he
  rw [Exec.ending_of_run hrun] at he
  rw [Exec.final_of_run hrun]
  exact hy e he

/-- Either the first thing fails or what is done with its answer. -/
theorem BlamedOn.bind {first second : List Site} {x : Exec α} {f : α → Exec β} {m : Machine}
    (hx : BlamedOn call start first x m)
    (hf : ∀ a m', x m = .ok a m' → BlamedOn call start second (f a) m') :
    BlamedOn call start (first ++ second) (x >>= f) m := by
  intro e he
  cases hrun : x m with
  | ok a m' =>
      have hsame : (x >>= f) m = f a m' := by rw [Exec.bind_run, hrun]
      rw [Exec.ending_of_run hsame] at he
      rw [Exec.final_of_run hsame]
      exact (hf a m' hrun e he).mono (List.subset_append_right _ _)
  | error stop m' =>
      have hsame : (x >>= f) m = .error stop m' := by rw [Exec.bind_run, hrun]
      rw [Exec.ending_of_error hsame, ← Exec.ending_of_error hrun] at he
      rw [Exec.final_of_error hsame, ← Exec.final_of_error hrun]
      exact (hx e he).mono (List.subset_append_left _ _)

/-- A construct fails right now. -/
theorem blamedOn_fail {m : Machine} (hm : m.At fns start level) {construct : Construct}
    {range : Range} {cause : Cause} {infos : List Info}
    (h : construct.AtFault call start m range cause infos) :
    BlamedOn call start (Site.all level [construct])
      (Exec.fail (.source range) cause infos : Exec α) m := by
  intro e he
  cases he
  exact ⟨⟨level, construct⟩, List.mem_singleton_self _, m, range, cause, infos, hm.lead,
    ⟨[], fun _ hmem => absurd hmem List.not_mem_nil, rfl⟩, hm.level, h, rfl⟩

/-- Constructs at a level can be listed in two parts. -/
theorem Site.all_append (level : Nat) (first second : List Construct) :
    Site.all level (first ++ second) = Site.all level first ++ Site.all level second :=
  List.map_append

/-! ## calls -/

/-- The report of wrong arguments is right about them. -/
theorem FirstFault.describes {fn : String} {types : List ValueType} {args : List Located}
    {error : ArgumentError} (h : FirstFault fn types args error) :
    error.Describes fn types args := by
  cases h with
  | arity h => exact ⟨rfl, rfl, rfl, h.symm⟩
  | @type index expected arg hlength htype harg hne =>
      exact ⟨rfl, hlength, hne.symm, index, arg, rfl, htype, harg, rfl⟩

/-- A malformed call answers a fallback value, or it fails. -/
theorem Exec.malformed_cases (site : Location) (error : ArgumentError) (fallback : Option Value)
    (m : Machine) :
    (∃ value m', malformed site error fallback m = .ok value m') ∨
      malformed site error fallback m = (fail site (.argument error) [] : Exec Value) m := by
  rw [malformed_run]
  cases m.world.context.policy <;> cases fallback
  case fallback.some value => exact .inl ⟨_, _, rfl⟩
  all_goals exact .inr rfl

/-- A function whose body does not fail fails because of its arguments alone. -/
theorem Declaration.failed_routine {d : Declaration} {clock : Nat → Reading} {caller : Caller}
    (hbody : ∀ site args m e, ((d.body site args).perform clock caller).ending m ≠ .failed e)
    {site : Location} {args : List Located} {m : Machine} {e : RuntimeError}
    (h : ((d.routine ⟨site, args⟩).perform clock caller).ending m = .failed e) :
    ∃ error : ArgumentError, error.Describes d.name (d.params.map (·.type)) args ∧
      e = m.world.context.error site (.argument error) [] ∧
      ((d.routine ⟨site, args⟩).perform clock caller).final m = m := by
  unfold routine at h ⊢
  obtain ⟨_, typed, hparse, _⟩ | ⟨error, hparse, hfault⟩ :=
    parseArgs_cases d.name (d.params.map (·.type)) args
  · simp only [hparse] at h
    exact absurd h (hbody _ _ m e)
  · simp only [hparse, Action.perform] at h ⊢
    obtain ⟨value, m', hrun⟩ | hrun := Exec.malformed_cases site error d.fallback m
    · rw [Exec.ending_of_ok hrun] at h
      cases h
    · rw [Exec.ending_of_run hrun] at h
      cases h
      exact ⟨error, hfault.describes, rfl, Exec.final_of_run hrun⟩

theorem Exec.readClock_run (clock : Nat → Reading) (m : Machine) :
    readClock clock m = .ok (clock m.world.store.clockReads) (m.after .clockRead) := rfl

/-- A call fails if what is done in it does, and then it is left. -/
theorem Exec.inCall_failed {entry : CallEntry} {args : Nat} {x : Exec α} {m : Machine}
    {e : RuntimeError} (h : (inCall entry args x).ending m = .failed e) :
    x.ending (m.after (.callEntered entry args)) = .failed e ∧
      (inCall entry args x).final m =
        (x.final (m.after (.callEntered entry args))).after .callLeft := by
  obtain ⟨outcome, hend, hrun⟩ | ⟨stop, hend, hs, hrun⟩ := inCall_cases entry args x m
  · rw [ending_of_run hrun, ending_resume, ← hend] at h
    rw [final_of_run hrun, final_resume]
    exact ⟨h, rfl⟩
  · rw [ending_of_error hrun] at h
    rw [h] at hs
    exact absurd trivial hs

/-- The language's own functions, and what they take.  Their bodies do not fail. -/
theorem Store.OwnOnly.routine_cases {s : Store} (hs : s.OwnOnly) {h : Host}
    (hclock : ∀ n, h.clock n ≠ .beforeEpoch) (ref : FunctionRef) :
    h.routine (s.fn ref).behaviour = (fun _ => .answer .null) ∨
      ∃ d : Declaration, h.routine (s.fn ref).behaviour = d.routine ∧
        (s.fn ref).Takes d.name (d.params.map (·.type)) ∧
        ∀ caller site args m e,
          ((d.body site args).perform h.clock caller).ending m ≠ .failed e := by
  obtain hmem | hnone := s.fn_mem_or ref
  · obtain hb | hb := hs _ hmem
    · refine .inr ⟨Library.clock, by rw [hb]; rfl, .clock hb, fun caller site args m e => ?_⟩
      cases hread : h.clock m.world.store.clockReads with
      | seconds value =>
          simp [Library.clock, Action.perform, Exec.ending, Exec.readClock_run, Exec.bind_run,
            hread]
      | beforeEpoch => exact absurd hread (hclock _)
    · refine .inr ⟨Library.hasField, by rw [hb]; rfl, .hasField hb, fun caller site args m e => ?_⟩
      exact Ending.noConfusion
  · exact .inl (by rw [hnone]; rfl)

/-- A call of a library function fails because of its arguments, once it is entered. -/
theorem Store.OwnOnly.call_failed {s : Store} (hs : s.OwnOnly) {h : Host}
    (hclock : ∀ n, h.clock n ≠ .beforeEpoch) {depth : Nat} {site : Location} {ref : FunctionRef}
    {args : List Located} {m : Machine} {e : RuntimeError}
    (hm : m.world.store.functions = s.functions)
    (he : (h.call depth site ref args).ending m = .failed e) :
    ∃ entry name types, ∃ error : ArgumentError,
      let now := m.after (.callEntered entry args.length)
      (now.world.store.fn ref).Takes name types ∧ error.Describes name types args ∧
        e = now.world.context.error site (.argument error) [] ∧
        (h.call depth site ref args).final m = now.after .callLeft := by
  cases depth with
  | zero => cases he
  | succ depth =>
      have hown : m.world.store.OwnOnly := by rwa [Store.OwnOnly, hm]
      let fn := m.world.store.fn ref
      have hcall : h.call (depth + 1) site ref args m =
        Exec.inCall ⟨fn.name, site⟩ args.length
          ((h.routine fn.behaviour ⟨site, args⟩).perform h.clock (h.call depth)) m := rfl
      rw [Exec.ending_of_run hcall] at he
      rw [Exec.final_of_run hcall]
      obtain ⟨hfailed, hfinal⟩ := Exec.inCall_failed he
      rw [hfinal]
      obtain hinert | ⟨d, hd, htakes, hbody⟩ := hown.routine_cases hclock ref
      · rw [hinert] at hfailed
        cases hfailed
      · rw [hd] at hfailed ⊢
        obtain ⟨error, hdescribes, herror, hlast⟩ := Declaration.failed_routine (hbody _) hfailed
        exact ⟨_, d.name, _, error, htakes, hdescribes, herror, by rw [hlast]⟩

/-! ## expressions -/

/-- What calls have to be like: they run no programs, and if one fails, it does so once the
function is entered, with an error that is right about the arguments. -/
structure CallsRightly (fns : Array Function) (call : Caller) : Prop where
  traced : ∀ site ref args, Traced .programless fns (call site ref args)
  failed : ∀ {site : Location} {ref : FunctionRef} {args : List Located} {m : Machine}
    {e : RuntimeError}, m.world.store.functions = fns → (call site ref args).ending m = .failed e →
      ∃ entry name types, ∃ error : ArgumentError,
        let now := m.after (.callEntered entry args.length)
        (now.world.store.fn ref).Takes name types ∧ error.Describes name types args ∧
          e = now.world.context.error site (.argument error) [] ∧
          (call site ref args).final m = now.after .callLeft

/-- The language's own functions are as calls have to be. -/
theorem Store.OwnOnly.callsRightly {s : Store} (hs : s.OwnOnly) {h : Host}
    (hclock : ∀ n, h.clock n ≠ .beforeEpoch) (depth : Nat) :
    CallsRightly s.functions (h.call depth) where
  traced := (hs.within h .programless).traced_call depth
  failed := hs.call_failed hclock

variable {m : Machine}

/-- What only adds an answer to what was done fails where that does. -/
theorem BlamedOn.andThen {sites : List Site} {x : Exec α} {f : α → Exec β}
    (hx : BlamedOn call start sites x m) (hf : ∀ a m' e, (f a).ending m' ≠ .failed e) :
    BlamedOn call start sites (x >>= f) m := by
  have hbind : BlamedOn call start (sites ++ []) (x >>= f) m :=
    hx.bind fun a m' _ => blamedOn_of_never (hf a m')
  rwa [List.append_nil] at hbind

/-- A variable that is read. -/
theorem blamedOn_readVariable (hm : m.At fns start level) (name : Name) :
    BlamedOn call start (Site.all level [.read name]) (readVariable name) m := by
  cases h : m.world.context.get? name.text with
  | some located =>
      have hrun : readVariable name m = (pure located.value : Exec Value) m := by
        simp [readVariable, Exec.bind_run, h]
      exact (blamedOn_of_never fun _ => Ending.noConfusion).of_run hrun
  | none =>
      have hrun : readVariable name m =
          (Exec.fail (.source name.range) (.undefinedVariable name.text) [] : Exec Value) m := by
        simp [readVariable, Exec.bind_run, h]
      exact (blamedOn_fail hm (.unboundRead h)).of_run hrun

/-- A field that is read, or its target. -/
theorem blamedOn_readField (hm : m.At fns start level) {target : Expr} {value : Value}
    (hv : target.Came call start m value) (field : Name) :
    BlamedOn call start (Site.all level [.readField target field])
      (readField value target.range field) m := by
  cases value with
  | inst ref =>
      intro e he
      have hrun := readField_run ref target.range field m
      cases hf : m.world.store.field? ref field.text with
      | some value =>
          rw [hf] at hrun
          rw [Exec.ending_of_ok hrun] at he
          cases he
      | none =>
          rw [hf] at hrun
          rw [Exec.ending_of_error hrun] at he
          cases he
          let missed : Event := .fieldMissed ref (m.world.store.classOf ref) field
          exact ⟨⟨level, _⟩, List.mem_singleton_self _, m.after missed, _, _, _,
            hm.lead.trans (m.leads_after missed),
            ⟨[], fun _ hmem => absurd hmem List.not_mem_nil, Exec.final_of_error hrun⟩, hm.level,
            .missingField hv rfl hf, rfl⟩
  | null | bool | int | float | string | cls | fn =>
      exact blamedOn_fail hm (.readTarget hv nofun)

/-- An operand that has to be a boolean. -/
theorem blamedOn_expectBool (hm : m.At fns start level) {operand : Expr} {value : Value}
    (hv : operand.Came call start m value) :
    BlamedOn call start (Site.all level [.test operand]) (expectBool operand.range value) m := by
  cases value with
  | bool b => exact blamedOn_of_never fun _ => Ending.noConfusion
  | null | int | float | string | cls | inst | fn => exact blamedOn_fail hm (.operand hv nofun)

/-- A call: its callee, or its arguments. -/
theorem blamedOn_callValue (hc : CallsRightly fns call) (hm : m.At fns start level)
    {range : Range} {callee : Expr} {args : List Expr} {value : Value} {values : List Located}
    (hv : callee.CameWith call start m args value values) (hlength : values.length = args.length) :
    BlamedOn call start (Site.all level [.call range callee args])
      (callValue call range callee.range value values) m := by
  cases value with
  | fn ref =>
      intro e he
      obtain ⟨entry, name, types, error, htakes, hdescribes, rfl, hfinal⟩ :=
        hc.failed hm.functions he
      rw [hlength] at hfinal htakes
      let entered : Event := .callEntered entry args.length
      refine ⟨⟨level, _⟩, List.mem_singleton_self _, m.after entered, range, _, [],
        hm.lead.trans (m.leads_after entered), ⟨[.callLeft], ?_, hfinal⟩, hm.level,
        .arguments hv hlength rfl htakes hdescribes, rfl⟩
      intro event hmem
      rw [List.mem_singleton.mp hmem]
      trivial
  | cls ref =>
      cases values with
      | nil => exact blamedOn_of_never fun _ => Ending.noConfusion
      | cons value rest =>
          have hne : args.length ≠ 0 := hlength ▸ nofun
          have hrun : instantiate range ref (value :: rest) m =
              (Exec.fail (.source range)
                (.argument (.wrongArity (m.world.store.cls ref).name 0 args.length)) [] :
                Exec Value) m := by
            rw [← hlength]
            rfl
          exact (blamedOn_fail hm (.classArguments hv hne)).of_run hrun
  | null | bool | int | float | string | inst =>
      exact blamedOn_fail hm (.callee hv nofun nofun)

/-- There are as many values as expressions. -/
theorem Expr.length_of_evalList {exprs : List Expr} {values : List Located} {m' : Machine}
    (h : Expr.evalList call exprs m = .ok values m') : values.length = exprs.length := by
  induction exprs generalizing m values with
  | nil =>
      rw [Expr.evalList] at h
      cases h
      rfl
  | cons e rest ih =>
      rw [Expr.evalList, Exec.bind_run] at h
      cases hfirst : e.eval call m with
      | error stop n => simp [hfirst] at h
      | ok value n =>
          simp only [hfirst, Exec.bind_run] at h
          cases hrest : Expr.evalList call rest n with
          | error stop n' => simp [hrest] at h
          | ok others n' =>
              simp only [hrest] at h
              cases h
              rw [List.length_cons, List.length_cons, ih hrest]

mutual

/-- An expression that fails does so at one of its constructs. -/
theorem Expr.blamedOn_eval (hc : CallsRightly fns call) : (e : Expr) → {m : Machine} →
    m.At fns start level → BlamedOn call start (Site.all level e.constructs) (e.eval call) m
  | .literal _ value, _, _ => blamedOn_of_never fun _ => Ending.noConfusion
  | .variable _ name, m, hm => by
      rw [Expr.eval, Expr.constructs]
      exact blamedOn_readVariable hm name
  | .field _ target name, m, hm => by
      rw [Expr.eval, Expr.constructs, Site.all_append]
      refine (target.blamedOn_eval hc hm).bind fun value m' hrun => ?_
      obtain ⟨hm', _⟩ := (target.traced_eval hc.traced).next hm hrun
      exact blamedOn_readField hm' ⟨m, hm.lead, hrun⟩ name
  | .call range callee _ args, m, hm => by
      rw [Expr.eval, Expr.constructs, Site.all_append, Site.all_append]
      refine (callee.blamedOn_eval hc hm).bind fun value m' hrun => ?_
      obtain ⟨hm', _⟩ := (callee.traced_eval hc.traced).next hm hrun
      refine (Expr.blamedOn_evalList hc args hm').bind fun values m'' hruns => ?_
      have htraced := Expr.has_evalList (executive_traced hc.traced).toEvaluative args
      obtain ⟨hm'', _⟩ := htraced.next hm' hruns
      exact blamedOn_callValue hc hm'' ⟨m', ⟨m, hm.lead, hrun⟩, hruns⟩
        (Expr.length_of_evalList hruns)
  | .not _ inner, m, hm => by
      rw [Expr.eval, Expr.constructs, Site.all_append]
      refine (inner.blamedOn_eval hc hm).bind fun value m' hrun => ?_
      obtain ⟨hm', _⟩ := (inner.traced_eval hc.traced).next hm hrun
      exact (blamedOn_expectBool hm' ⟨m, hm.lead, hrun⟩).andThen fun _ _ _ =>
        Ending.noConfusion
  | .eq _ left right, m, hm => by
      rw [Expr.eval, Expr.constructs, Site.all_append]
      refine (left.blamedOn_eval hc hm).bind fun value m' hrun => ?_
      obtain ⟨hm', _⟩ := (left.traced_eval hc.traced).next hm hrun
      exact (right.blamedOn_eval hc hm').andThen fun _ _ _ => Ending.noConfusion

/-- The same of lists of expressions. -/
theorem Expr.blamedOn_evalList (hc : CallsRightly fns call) : (es : List Expr) → {m : Machine} →
    m.At fns start level →
      BlamedOn call start (Site.all level (Expr.constructsOf es)) (Expr.evalList call es) m
  | [], _, _ => by
      rw [Expr.evalList]
      exact blamedOn_of_never fun _ => Ending.noConfusion
  | e :: rest, m, hm => by
      rw [Expr.evalList, Expr.constructsOf, Site.all_append]
      refine (e.blamedOn_eval hc hm).bind fun value m' hrun => ?_
      obtain ⟨hm', _⟩ := (e.traced_eval hc.traced).next hm hrun
      exact (Expr.blamedOn_evalList hc rest hm').andThen fun _ _ _ => Ending.noConfusion

end

/-! ## instructions -/

/-- An assignment is refused for want of a scope other than the library's that binds the
name; the library may bind it. -/
theorem blamedOn_assignVariable (hm : m.At fns start level) (name : Name) (value : Located) :
    BlamedOn call start (Site.all level [.assign name]) (assignVariable name value) m := by
  by_cases hdone : ∃ c, m.world.context.assign name.text value = .done c
  · obtain ⟨c, hdone⟩ := hdone
    have hrun : assignVariable name value m = Exec.emit (.assigned name.text value) m := by
      simp [assignVariable, Exec.bind_run, hdone]
    exact (blamedOn_of_never fun _ => Ending.noConfusion).of_run hrun
  · obtain ⟨hown, hassign⟩ := Context.assign_refused (not_exists.mp hdone)
    cases hlibrary : m.world.context.library.contains name.text with
    | true =>
        rw [hlibrary] at hassign
        have hrun : assignVariable name value m =
            (Exec.fail (.source name.range) (.libraryItemAssignment name.text)
              [⟨.tip, "declare a new variable instead to shadow the native item"⟩] :
              Exec Unit) m := by
          simp [assignVariable, Exec.bind_run, hassign]
        exact (blamedOn_fail hm (.libraryItem hlibrary hown)).of_run hrun
    | false =>
        rw [hlibrary] at hassign
        have hrun : assignVariable name value m =
            (Exec.fail (.source name.range) (.undefinedVariable name.text) [] : Exec Unit) m := by
          simp [assignVariable, Exec.bind_run, hassign]
        exact (blamedOn_fail hm (.unboundAssign (Frames.get?_eq_none hown hlibrary))).of_run hrun

/-- The target of a field that is written. -/
theorem blamedOn_writeField (hm : m.At fns start level) {target expr : Expr} {value : Value}
    (hv : target.CameFirst call start m expr value) (field : Name) (newValue : Value) :
    BlamedOn call start (Site.all level [.writeField target expr])
      (writeField value target.range field newValue) m := by
  refine BlamedOn.andThen ?_ fun _ _ _ => Ending.noConfusion
  cases value with
  | inst ref => exact blamedOn_of_never fun _ => Ending.noConfusion
  | null | bool | int | float | string | cls | fn =>
      exact blamedOn_fail hm (.writeTarget hv nofun)

/-- A block is left on an error. -/
theorem BlamedOn.inBlock {sites : List Site} {x : Exec α}
    (hx : BlamedOn call start sites x (m.after .blockEntered)) :
    BlamedOn call start sites (Exec.inBlock x) m := by
  intro e he
  obtain ⟨outcome, hend, _, hrun⟩ | ⟨_, _, _, hrun⟩ | ⟨stop, hend, hs, hrun⟩ :=
    Exec.inBlock_cases x m
  · rw [Exec.ending_of_run hrun, Exec.ending_resume, ← hend] at he
    rw [Exec.final_of_run hrun, Exec.final_resume]
    exact (hx e he).after trivial
  · rw [Exec.ending_of_error hrun] at he
    cases he
  · rw [Exec.ending_of_error hrun] at he
    rw [he] at hs
    exact absurd trivial hs

/-- One more block is executed once it is entered. -/
theorem Machine.At.enterBlock (hm : m.At fns start level) :
    (m.after .blockEntered).At fns start (level + 1) where
  lead := hm.lead.trans (m.leads_after _)
  functions := hm.functions
  level := congrArg (· + 1) hm.level

mutual

/-- An instruction that fails does so at one of its constructs. -/
theorem Instr.blamedOn_run (hc : CallsRightly fns call) : (instr : Instr) → {level : Nat} →
    {m : Machine} → m.At fns start level →
      BlamedOn call start (instr.sites level) (instr.run call) m
  | .declare _ name init, _, m, hm => by
      rw [Instr.run, Instr.sites]
      exact (init.blamedOn_eval hc hm).andThen fun _ _ _ => Ending.noConfusion
  | .assign _ name expr, _, m, hm => by
      rw [Instr.run, Instr.sites, Site.all_append]
      refine (expr.blamedOn_eval hc hm).bind fun value m' hrun => ?_
      obtain ⟨hm', _⟩ := (expr.traced_eval hc.traced).next hm hrun
      exact (blamedOn_assignVariable hm' name _).andThen fun _ _ _ => Ending.noConfusion
  | .setField _ target field expr, _, m, hm => by
      rw [Instr.run, Instr.sites, Site.all_append, Site.all_append]
      refine (target.blamedOn_eval hc hm).bind fun owner m' hrun => ?_
      obtain ⟨hm', _⟩ := (target.traced_eval hc.traced).next hm hrun
      refine (expr.blamedOn_eval hc hm').bind fun value m'' hruns => ?_
      obtain ⟨hm'', _⟩ := (expr.traced_eval hc.traced).next hm' hruns
      exact (blamedOn_writeField hm'' ⟨m', value, ⟨m, hm.lead, hrun⟩, hruns⟩ field value).andThen
        fun _ _ _ => Ending.noConfusion
  | .classDecl _ name, _, m, hm => by
      rw [Instr.run]
      exact blamedOn_of_never fun _ => Ending.noConfusion
  | .ifThen _ test body, _, m, hm => by
      rw [Instr.run, Instr.sites, Site.all_append, List.append_assoc]
      refine (test.blamedOn_eval hc hm).bind fun value m' hrun => ?_
      obtain ⟨hm', _⟩ := (test.traced_eval hc.traced).next hm hrun
      refine (blamedOn_expectBool hm' ⟨m, hm.lead, hrun⟩).bind fun holds m'' hbool => ?_
      obtain ⟨hm'', _⟩ := (sequential_traced.expectBool _ _).next hm' hbool
      cases holds with
      | true => exact body.blamedOn_run hc hm''
      | false => exact blamedOn_of_never fun _ => Ending.noConfusion
  | .ifElse _ test body otherwise, _, m, hm => by
      rw [Instr.run, Instr.sites, Site.all_append, List.append_assoc]
      refine (test.blamedOn_eval hc hm).bind fun value m' hrun => ?_
      obtain ⟨hm', _⟩ := (test.traced_eval hc.traced).next hm hrun
      refine (blamedOn_expectBool hm' ⟨m, hm.lead, hrun⟩).bind fun holds m'' hbool => ?_
      obtain ⟨hm'', _⟩ := (sequential_traced.expectBool _ _).next hm' hbool
      cases holds with
      | true => exact (body.blamedOn_run hc hm'').mono (List.subset_append_left _ _)
      | false => exact (otherwise.blamedOn_run hc hm'').mono (List.subset_append_right _ _)
  | .eval _ expr, _, m, hm => by
      rw [Instr.run, Instr.sites]
      exact (expr.blamedOn_eval hc hm).andThen fun _ _ _ => Ending.noConfusion

/-- A block has its instructions to blame, one level further in. -/
theorem Block.blamedOn_run (hc : CallsRightly fns call) : (block : Block) → {level : Nat} →
    {m : Machine} → m.At fns start level →
      BlamedOn call start (block.sites level) (block.run call) m
  | .mk _ instrs, _, m, hm => by
      rw [Block.run, Block.sites]
      exact (Instr.blamedOn_runList hc none instrs hm.enterBlock).inBlock

/-- A list of instructions has them to blame. -/
theorem Instr.blamedOn_runList (hc : CallsRightly fns call) : (latest : Option Located) →
    (instrs : List Instr) → {level : Nat} → {m : Machine} → m.At fns start level →
      BlamedOn call start (Instr.sitesOf level instrs) (Instr.runList call latest instrs) m
  | latest, [], _, m, hm => by
      rw [Instr.runList]
      exact blamedOn_of_never fun _ => Ending.noConfusion
  | _, instr :: rest, _, m, hm => by
      rw [Instr.runList, Instr.sitesOf]
      refine (instr.blamedOn_run hc hm).bind fun value m' hrun => ?_
      obtain ⟨hm', _⟩ := (instr.has_run (executive_traced hc.traced)).next hm hrun
      exact Instr.blamedOn_runList hc value rest hm'

end

end

/-! ## programs -/

/-- With the language's own library and a clock that is not before the epoch, a program that
starts in the base scope and fails has a construct that is to blame: the error is located at
the part of it that is wrong, and what it says was true when it arose. -/
theorem Store.OwnOnly.run_blames {w : World} (hown : w.store.OwnOnly)
    (hbase : w.context.blocks = []) {h : Host} (hclock : ∀ n, h.clock n ≠ .beforeEpoch)
    {depth : Nat} {program : Program} {e : RuntimeError}
    (hfailed : (h.run depth program).ending ⟨w, []⟩ = .failed e) :
    Blames (h.call depth) ⟨w, []⟩ ((h.run depth program).final ⟨w, []⟩)
      (Instr.sitesOf 0 program) e := by
  have hc := hown.callsRightly hclock depth
  have hstart : ((Machine.mk w []).after (.programStarted program.length)).At
      w.store.functions ⟨w, []⟩ 0 :=
    ⟨Machine.leads_after _ _, rfl, congrArg List.length hbase⟩
  have hbody := Instr.blamedOn_runList hc none program hstart
  have hsame := Program.ending_run (h.call depth) program ⟨w, []⟩
  have hlast : (h.run depth program).final ⟨w, []⟩ =
      ((Instr.runList (h.call depth) none program).final
        ((Machine.mk w []).after (.programStarted program.length))).after (.programAborted e) :=
    Program.final_run_of_failed hfailed
  rw [hlast]
  exact (hbody e (hsame.symm.trans hfailed)).after rfl

/-- A host without programs, whose clock stands still. -/
def stillHost : Host := .ofScripts (fun _ => none) fun _ => .seconds default

/-- Asks within a block whether a new instance has the field `1`. -/
def asksForField : Program :=
  [.classDecl ⟨0, 7⟩ ⟨⟨6, 1⟩, "A"⟩,
    .ifThen ⟨8, 31⟩ (.literal ⟨11, 4⟩ (.bool true)) <| .mk ⟨16, 23⟩
      [.eval ⟨20, 16⟩ <| .call ⟨20, 16⟩ (.variable ⟨20, 8⟩ ⟨⟨20, 8⟩, "hasField"⟩) ⟨28, 8⟩
        [.call ⟨29, 3⟩ (.variable ⟨29, 1⟩ ⟨⟨29, 1⟩, "A"⟩) ⟨30, 2⟩ [],
          .literal ⟨34, 1⟩ (.int 1)]]]

/-- The name of a field has to be a string: the call as a whole is to blame, not the argument
and not the block around it. -/
theorem run_blames_asksForField :
    let run := stillHost.run 1 asksForField
    let w := worldWith []
    let e : RuntimeError :=
      ⟨.source ⟨20, 16⟩, .argument (.wrongType "hasField" 2 .string .int),
        [⟨"hasField", .source ⟨20, 16⟩⟩], []⟩
    run.ending ⟨w, []⟩ = .failed e ∧
      Blames (stillHost.call 1) ⟨w, []⟩ (run.final ⟨w, []⟩) (Instr.sitesOf 0 asksForField) e := by
  intro run w e
  have hown : w.store.OwnOnly := by decide +kernel
  have hfailed : run.ending ⟨w, []⟩ = .failed e := by decide +kernel
  have hclock (n : Nat) : stillHost.clock n ≠ .beforeEpoch := Reading.noConfusion
  have hbase : w.context.blocks.isEmpty = true := by decide +kernel
  exact ⟨hfailed, hown.run_blames (List.isEmpty_iff.mp hbase) hclock hfailed⟩

end FieldScript
