import FieldScript.Eval
import FieldScript.Proofs.Pairing

/-!
# FieldScript.Proofs.Parallel

Computations that run in parallel.

Two computations are in parallel if from worlds abreast they go through events that match,
and then both answer, with answers that match, or both stop for the same reason
(`Parallel`).  A program is in parallel with itself: nothing it does depends on which
references its objects have got.

What is paired at some moment stays so.  Computations are therefore compared from a moment
on at which certain pairs exist, and what comes next from any later one (`Parallel.bind`).
-/

namespace FieldScript

/-! ## being in parallel -/

section Definitions

variable (P : Pairing)

/-- Events that match one by one, in two runs that started abreast; latest first. -/
inductive Follows (w w' : World) : List Event → List Event → Prop where
  | nil : Follows w w' [] []
  | cons {event event' : Event} {earlier earlier' : List Event} (h : Follows w w' earlier earlier')
      (he : event.Matches (P.upTo (w.afterAll earlier).store (w'.afterAll earlier').store) event') :
      Follows w w' (event :: earlier) (event' :: earlier')

/-- Two machines have come from two others through events that match. -/
def Proceeds (m m' n n' : Machine) : Prop :=
  ∃ added added', n = ⟨m.world.afterAll added, added ++ m.journal⟩ ∧
    n' = ⟨m'.world.afterAll added', added' ++ m'.journal⟩ ∧ Follows P m.world m'.world added added'

/-- The pairs that exist on two machines. -/
abbrev Pairing.on (P : Pairing) (m m' : Machine) : Pairing := P.upTo m.world.store m'.world.store

/-- Two results of computations that start on two machines match. -/
inductive Meets {α β : Type} (R : Pairing → α → β → Prop) (m m' : Machine) :
    EStateM.Result Stop Machine α → EStateM.Result Stop Machine β → Prop where
  | answered {a : α} {b : β} {n n' : Machine} (hn : Proceeds P m m' n n') (h : R (P.on n n') a b) :
      Meets R m m' (.ok a n) (.ok b n')
  | stopped (stop : Stop) {n n' : Machine} (hn : Proceeds P m m' n n') :
      Meets R m m' (.error stop n) (.error stop n')

/-- Two computations match that start abreast once these pairs exist. -/
def Parallel (Q : Pairing) {α β : Type} (R : Pairing → α → β → Prop) (x : Exec α) (y : Exec β) :
    Prop :=
  ∀ ⦃m m' : Machine⦄, m.world.Abreast P m'.world → Q ≤ P.on m m' → Meets P R m m' (x m) (y m')

end Definitions

/-- Answers that are the same, whatever is paired. -/
def Pairing.Same {α : Type} (_ : Pairing) (a b : α) : Prop := a = b

/-- Both succeed, with answers that match, or both fail with the same error. -/
inductive OutcomesMatch {α β : Type} (R : Pairing → α → β → Prop) (Q : Pairing) :
    Except RuntimeError α → Except RuntimeError β → Prop where
  | ok {a : α} {b : β} (h : R Q a b) : OutcomesMatch R Q (.ok a) (.ok b)
  | error (e : RuntimeError) : OutcomesMatch R Q (.error e) (.error e)

section Combinators

variable {α β γ δ : Type} {P Q : Pairing} {R : Pairing → α → β → Prop}
  {S : Pairing → γ → δ → Prop}

/-! ## events one after the other -/

namespace Follows

variable {w w' : World}

/-- Worlds that were abreast before matching events are so after them. -/
theorem abreast {events events' : List Event} (h : Follows P w w' events events')
    (hw : w.Abreast P w') : (w.afterAll events).Abreast P (w'.afterAll events') := by
  induction h with
  | nil => exact hw
  | cons _ he ih => exact ih.after he

/-- Matching events can follow on matching events. -/
theorem append {first first' second second' : List Event} (h : Follows P w w' first first')
    (h' : Follows P (w.afterAll first) (w'.afterAll first') second second') :
    Follows P w w' (second ++ first) (second' ++ first') := by
  induction h' with
  | nil => exact h
  | cons _ he ih =>
      rw [← World.afterAll_append, ← World.afterAll_append] at he
      exact .cons ih he

/-- Runs that go in parallel have done so at any moment before. -/
theorem drop {events events' : List Event} (h : Follows P w w' events events') (n : Nat) :
    Follows P w w' (events.drop n) (events'.drop n) := by
  induction h generalizing n with
  | nil =>
      rw [List.drop_nil]
      exact .nil
  | cons h he ih =>
      cases n with
      | zero => exact .cons h he
      | succ n => exact ih n

/-- They give the same log. -/
theorem logOf_eq {events events' : List Event} (h : Follows P w w' events events') :
    logOf events = logOf events' := by
  induction h with
  | nil => rfl
  | cons _ he ih => rw [logOf_cons, logOf_cons, ih, he.line?_eq]

end Follows

/-- Stores only grow over the events of a run. -/
theorem World.reaches_afterAll (w : World) (events : List Event) :
    w.store.Reaches (w.afterAll events).store := by
  induction events with
  | nil => exact .rfl
  | cons event earlier ih =>
      rw [afterAll_cons, after_eq]
      exact ih.trans ((w.afterAll earlier).store.reaches_after event)

theorem Proceeds.rfl {m m' : Machine} : Proceeds P m m' m m' := ⟨[], [], Eq.refl _, Eq.refl _, .nil⟩

/-- What two machines go through can be put together of two stretches. -/
theorem Proceeds.trans {m m' n n' p p' : Machine} (h : Proceeds P m m' n n')
    (h' : Proceeds P n n' p p') : Proceeds P m m' p p' := by
  obtain ⟨first, first', rfl, rfl, hfirst⟩ := h
  obtain ⟨second, second', rfl, rfl, hsecond⟩ := h'
  refine ⟨second ++ first, second' ++ first', ?_, ?_, hfirst.append hsecond⟩
  · rw [World.afterAll_append, List.append_assoc]
  · rw [World.afterAll_append, List.append_assoc]

/-- Machines that started abreast stay abreast. -/
theorem Proceeds.abreast {m m' n n' : Machine} (h : Proceeds P m m' n n')
    (hm : m.world.Abreast P m'.world) : n.world.Abreast P n'.world := by
  obtain ⟨added, added', rfl, rfl, hfollows⟩ := h
  exact hfollows.abreast hm

/-- Pairs that exist are not given up. -/
theorem Proceeds.on_le {m m' n n' : Machine} (h : Proceeds P m m' n n') :
    P.on m m' ≤ P.on n n' := by
  obtain ⟨added, added', rfl, rfl, _⟩ := h
  exact P.upTo_mono (World.reaches_afterAll _ _) (World.reaches_afterAll _ _)

/-- Results are compared with the machines where both computations began. -/
theorem Meets.of_proceeds {m m' n n' : Machine} (h : Proceeds P m m' n n')
    {r : EStateM.Result Stop Machine α} {r' : EStateM.Result Stop Machine β}
    (hr : Meets P R n n' r r') : Meets P R m m' r r' := by
  cases hr with
  | answered hn hab => exact .answered (h.trans hn) hab
  | stopped stop hn => exact .stopped stop (h.trans hn)

/-! ## single computations -/

/-- Computations in parallel that start abreast, with nothing behind them. -/
theorem Parallel.meets {x : Exec α} {y : Exec β} (h : Parallel P Q R x y) {w w' : World}
    (hw : w.Abreast P w') (hle : Q ≤ P.upTo w.store w'.store) :
    Meets P R ⟨w, []⟩ ⟨w', []⟩ (x ⟨w, []⟩) (y ⟨w', []⟩) :=
  h hw hle

/-- What is in parallel once some pairs exist is so once more do. -/
theorem Parallel.mono {Q' : Pairing} {x : Exec α} {y : Exec β} (h : Parallel P Q R x y)
    (hle : Q ≤ Q') : Parallel P Q' R x y := by
  intro m m' hm hq
  exact h hm (le_trans hle hq)

/-- What is the same of a relation that only grows with the pairs. -/
theorem parallel_pure {a : α} {b : β} (h : ∀ {Q'}, Q ≤ Q' → R Q' a b) :
    Parallel P Q R (pure a) (pure b) := by
  intro m m' _ hq
  exact .answered .rfl (h hq)

/-- The same stop is the same result. -/
theorem parallel_throw (stop : Stop) : Parallel P Q R (throw stop) (throw stop) := by
  intro m m' _ _
  exact .stopped stop .rfl

/-- The same failure gives the same error, since matching contexts have the same calls in progress.
-/
theorem parallel_fail (location : Location) (cause : Cause) (infos : List Info) :
    Parallel P Q R (Exec.fail location cause infos) (Exec.fail location cause infos) := by
  intro m m' hm _
  rw [Exec.fail_run, Exec.fail_run, hm.context.error_eq]
  exact .stopped _ .rfl

/-- Matching events leave both sides abreast. -/
theorem parallel_emit {event event' : Event} (h : event.Matches Q event') :
    Parallel P Q Pairing.Same (Exec.emit event) (Exec.emit event') := by
  intro m m' _ hq
  have hproceeds : Proceeds P m m' (m.after event) (m'.after event') :=
    ⟨[event], [event'], rfl, rfl, .cons .nil (h.mono hq)⟩
  exact .answered hproceeds rfl

/-! ## one after the other -/

/-- Computations in parallel can be followed by others, from any later moment at which the answers
match. -/
theorem Parallel.bind {x : Exec α} {y : Exec β} {f : α → Exec γ} {g : β → Exec δ}
    (hx : Parallel P Q R x y)
    (hf : ∀ {Q'} a b, Q ≤ Q' → R Q' a b → Parallel P Q' S (f a) (g b)) :
    Parallel P Q S (x >>= f) (y >>= g) := by
  intro m m' hm hq
  have hmeets := hx hm hq
  rw [Exec.bind_run, Exec.bind_run]
  generalize x m = r at hmeets
  generalize y m' = r' at hmeets
  cases hmeets with
  | answered hn hab =>
      exact (hf _ _ (le_trans hq hn.on_le) hab (hn.abreast hm) le_rfl).of_proceeds hn
  | stopped stop hn => exact .stopped stop hn

/-- To go on from the context, it is enough to be in parallel for contexts that match by then. -/
theorem parallel_context_bind {f : Context → Exec α} {g : Context → Exec β}
    (hf : ∀ {Q'} c c', Q ≤ Q' → c.Matches Q' c' → Parallel P Q' R (f c) (g c')) :
    Parallel P Q R (Exec.context >>= f) (Exec.context >>= g) := by
  intro m m' hm hq
  exact hf _ _ hq hm.context hm le_rfl

/-- To go on from the store, it is enough to be in parallel for stores that match by then. -/
theorem parallel_store_bind {f : Store → Exec α} {g : Store → Exec β}
    (hf : ∀ {Q'} s s', Q ≤ Q' → s.Matches Q' s' → Parallel P Q' R (f s) (g s')) :
    Parallel P Q R (Exec.store >>= f) (Exec.store >>= g) := by
  intro m m' hm hq
  exact hf _ _ hq hm.store.store hm le_rfl

theorem parallel_get_bind {f : Machine → Exec α} {g : Machine → Exec β}
    (hf : ∀ {Q'} m m', Q ≤ Q' → m.world.Matches Q' m'.world → Parallel P Q' R (f m) (g m')) :
    Parallel P Q R (get >>= f) (get >>= g) := by
  intro m m' hm hq
  exact hf m m' hq hm.worlds hm le_rfl

/-! ## going on with an outcome -/

/-- Outcomes of computations in parallel match. -/
theorem Parallel.settle {x : Exec α} {y : Exec β} (hx : Parallel P Q R x y) :
    Parallel P Q (OutcomesMatch R) (Exec.settle x) (Exec.settle y) := by
  intro m m' hm hq
  have hmeets := hx hm hq
  rw [Exec.settle_run, Exec.settle_run]
  generalize x m = r at hmeets
  generalize y m' = r' at hmeets
  cases hmeets with
  | answered hn hab => exact .answered hn (.ok hab)
  | stopped stop hn =>
      cases stop with
      | error e => exact .answered hn (.error e)
      | blockExit => exact .stopped .blockExit hn
      | tooDeep => exact .stopped .tooDeep hn

/-- Answers that match go on matching as pairs are added. -/
structure Lasting (R : Pairing → α → β → Prop) : Prop where
  mono : ∀ {Q Q' : Pairing} {a : α} {b : β}, Q ≤ Q' → R Q a b → R Q' a b

/-- Outcomes that match go on matching, if their answers do. -/
theorem OutcomesMatch.mono {Q' : Pairing} (hR : Lasting R) {o : Except RuntimeError α}
    {o' : Except RuntimeError β} (h : OutcomesMatch R Q o o') (hle : Q ≤ Q') :
    OutcomesMatch R Q' o o' := by
  cases h with
  | ok hab => exact .ok (hR.mono hle hab)
  | error e => exact .error e

/-- Going on with matching outcomes leads to matching answers or the same error. -/
theorem parallel_resume (hR : Lasting R) {o : Except RuntimeError α} {o' : Except RuntimeError β}
    (h : OutcomesMatch R Q o o') : Parallel P Q R (Exec.resume o) (Exec.resume o') := by
  cases h with
  | ok hab => exact parallel_pure fun hle => hR.mono hle hab
  | error e => exact parallel_throw _

/-! ## blocks and calls -/

/-- Matching contexts are in as many blocks as each other. -/
theorem parallel_leaveBlock : Parallel P Q Pairing.Same Exec.leaveBlock Exec.leaveBlock := by
  refine parallel_context_bind fun c c' _ hc => ?_
  have hblocks := hc.frames.blocks
  generalize c.blocks = blocks at hblocks
  generalize c'.blocks = blocks' at hblocks
  cases hblocks with
  | nil => exact parallel_throw .blockExit
  | cons => exact parallel_emit .blockLeft

variable {x : Exec α} {y : Exec β}

/-- Blocks around computations in parallel are in parallel. -/
theorem Parallel.inBlock (hR : Lasting R) (hx : Parallel P Q R x y) :
    Parallel P Q R (Exec.inBlock x) (Exec.inBlock y) := by
  refine (parallel_emit .blockEntered).bind fun _ _ hle _ => ?_
  refine (hx.mono hle).settle.bind fun outcome outcome' _ ho => ?_
  exact parallel_leaveBlock.bind fun _ _ hle _ => parallel_resume hR (ho.mono hR hle)

/-- Calls around computations in parallel are in parallel. -/
theorem Parallel.inCall (hR : Lasting R) (entry : CallEntry) (args : Nat)
    (hx : Parallel P Q R x y) :
    Parallel P Q R (Exec.inCall entry args x) (Exec.inCall entry args y) := by
  refine (parallel_emit (.callEntered entry args)).bind fun _ _ hle _ => ?_
  refine (hx.mono hle).settle.bind fun outcome outcome' _ ho => ?_
  exact (parallel_emit .callLeft).bind fun _ _ hle _ => parallel_resume hR (ho.mono hR hle)

/-! ## new objects -/

/-- A new class on one side stands for the new one on the other. -/
theorem parallel_newClass_bind (info : ClassInfo) {f : ClassRef → Exec α} {g : ClassRef → Exec β}
    (hf : ∀ {Q'} r r', Q ≤ Q' → Q'.classes.rel r.index r'.index → Parallel P Q' R (f r) (g r')) :
    Parallel P Q R (do let r ← Exec.nextClass; Exec.emit (.classCreated info); f r)
      (do let r ← Exec.nextClass; Exec.emit (.classCreated info); g r) := by
  intro m m' hm hq
  have hn : Proceeds P m m' (m.after (.classCreated info)) (m'.after (.classCreated info)) :=
    ⟨[_], [_], rfl, rfl, .cons .nil (.classCreated info)⟩
  have hnew : (P.on (m.after (.classCreated info)) (m'.after (.classCreated info))).classes.rel
      m.world.store.classes.size m'.world.store.classes.size := by
    refine ⟨hm.store.ahead.classes.next, ?_, ?_⟩ <;>
      simp [Machine.after, World.after, Store.addClass]
  exact (hf m.world.store.nextClass m'.world.store.nextClass (le_trans hq hn.on_le) hnew
    (hn.abreast hm) le_rfl).of_proceeds hn

/-- The new instances of both sides are paired, in the way they were to be. -/
theorem parallel_newInstance_bind {event event' : Event} (he : event.Matches Q event')
    (hevent : ∃ cls, ∀ w : World, (w.after event).store = w.store.addInstance cls)
    (hevent' : ∃ cls, ∀ w : World, (w.after event').store = w.store.addInstance cls)
    {f : InstanceRef → Exec α} {g : InstanceRef → Exec β}
    (hf : ∀ {Q'} r r', Q ≤ Q' → Q'.instances.rel r.index r'.index →
      Parallel P Q' R (f r) (g r')) :
    Parallel P Q R (do let r ← Exec.nextInstance; Exec.emit event; f r)
      (do let r ← Exec.nextInstance; Exec.emit event'; g r) := by
  intro m m' hm hq
  obtain ⟨cls, hstore⟩ := hevent
  obtain ⟨cls', hstore'⟩ := hevent'
  have hn : Proceeds P m m' (m.after event) (m'.after event') :=
    ⟨[_], [_], rfl, rfl, .cons .nil (he.mono hq)⟩
  have hnew : (P.on (m.after event) (m'.after event')).instances.rel
      m.world.store.instances.size m'.world.store.instances.size := by
    refine ⟨hm.store.ahead.instances.next, ?_, ?_⟩ <;>
      simp [Machine.after, hstore, hstore', Store.addInstance]
  exact (hf m.world.store.nextInstance m'.world.store.nextInstance (le_trans hq hn.on_le) hnew
    (hn.abreast hm) le_rfl).of_proceeds hn

/-- The new functions of both sides are paired, in the way they were to be. -/
theorem parallel_newFunction_bind (fn : Function) {f : FunctionRef → Exec α}
    {g : FunctionRef → Exec β}
    (hf : ∀ {Q'} r r', Q ≤ Q' → Q'.functions.rel r.index r'.index →
      Parallel P Q' R (f r) (g r')) :
    Parallel P Q R (do let r ← Exec.nextFunction; Exec.emit (.functionCreated fn); f r)
      (do let r ← Exec.nextFunction; Exec.emit (.functionCreated fn); g r) := by
  intro m m' hm hq
  have hn : Proceeds P m m' (m.after (.functionCreated fn)) (m'.after (.functionCreated fn)) :=
    ⟨[_], [_], rfl, rfl, .cons .nil (.functionCreated fn)⟩
  have hnew : (P.on (m.after (.functionCreated fn)) (m'.after (.functionCreated fn))).functions.rel
      m.world.store.functions.size m'.world.store.functions.size := by
    refine ⟨hm.store.ahead.functions.next, ?_, ?_⟩ <;>
      simp [Machine.after, World.after, Store.addFunction]
  exact (hf m.world.store.nextFunction m'.world.store.nextFunction (le_trans hq hn.on_le) hnew
    (hn.abreast hm) le_rfl).of_proceeds hn

end Combinators

/-! ## steps of programs -/

/-- Optional values that match. -/
abbrev MatchOption (Q : Pairing) : Option Located → Option Located → Prop :=
  Option.Rel (Located.Matches Q)

abbrev MatchList (Q : Pairing) : List Located → List Located → Prop :=
  List.Forall₂ (Located.Matches Q)

/-- Values that match go on matching. -/
theorem lasting_value : Lasting Value.Matches where
  mono hle h := h.mono hle

theorem lasting_list : Lasting MatchList where
  mono hle h := by
    refine h.imp ?_
    intro v v' hv
    exact hv.mono hle

theorem lasting_option : Lasting MatchOption where
  mono hle h := by
    cases h with
    | some h => exact .some (h.mono hle)
    | none => exact .none

section Steps

variable {P Q : Pairing} {v v' : Value}

/-- Instances that are paired. -/
def MatchInstance (Q : Pairing) (r r' : InstanceRef) : Prop := Q.instances.rel r.index r'.index

/-- Matching values are paired instances, or neither is an instance. -/
theorem parallel_expectInstance (hv : v.Matches Q v') (range : Range) :
    Parallel P Q MatchInstance (expectInstance v range) (expectInstance v' range) := by
  cases hv with
  | inst h => exact parallel_pure fun hle => hle.instances h
  | null | bool | int | float | string | cls | fn => exact parallel_fail _ _ _

/-- Matching values are the same truth value, or neither is one. -/
theorem parallel_expectBool (hv : v.Matches Q v') (range : Range) :
    Parallel P Q Pairing.Same (expectBool range v) (expectBool range v') := by
  cases hv with
  | bool b => exact parallel_pure fun _ => rfl
  | null | int | float | string | cls | inst | fn => exact parallel_fail _ _ _

/-- A field of paired instances has matching values, or neither instance has it. -/
theorem parallel_readField (hv : v.Matches Q v') (range : Range) (field : Name) :
    Parallel P Q Value.Matches (readField v range field) (readField v' range field) := by
  refine (parallel_expectInstance hv range).bind fun r r' _ hr => ?_
  refine parallel_store_bind fun s s' hle hs => ?_
  have hr : _ := hle.instances hr
  have hfield := hs.field? hr field.text
  generalize s.field? r field.text = o at hfield
  generalize s'.field? r' field.text = o' at hfield
  cases hfield with
  | some hvalue => exact parallel_pure fun hle => hvalue.mono hle
  | none =>
      dsimp only
      rw [hs.classOf_eq hr]
      exact (parallel_emit (.fieldMissed hr _ field)).bind fun _ _ _ _ => parallel_fail _ _ _

/-- Matching values go into the same field of paired instances. -/
theorem parallel_writeField (hv : v.Matches Q v') (range : Range) (field : Name)
    {u u' : Value} (hu : u.Matches Q u') :
    Parallel P Q Pairing.Same (writeField v range field u) (writeField v' range field u') := by
  refine (parallel_expectInstance hv range).bind fun _ _ hle hr => ?_
  exact parallel_emit (.fieldSet hr field.text (hu.mono hle))

/-- A name is found in matching contexts with matching values, or in neither. -/
theorem parallel_readVariable (name : Name) :
    Parallel P Q Value.Matches (readVariable name) (readVariable name) := by
  refine parallel_context_bind fun c c' _ hc => ?_
  have hget := hc.frames.get? name.text
  generalize c.get? name.text = o at hget
  generalize c'.get? name.text = o' at hget
  cases hget with
  | some hv => exact parallel_pure fun hle => hv.value.mono hle
  | none => exact parallel_fail _ _ _

/-- Matching contexts both take an assignment, or refuse it for the same reason. -/
theorem parallel_assignVariable (name : Name) {u u' : Located} (hu : u.Matches Q u') :
    Parallel P Q Pairing.Same (assignVariable name u) (assignVariable name u') := by
  refine parallel_context_bind fun c c' hle hc => ?_
  have hu := hu.mono hle
  obtain ⟨d, d', hd, hd', _⟩ | ⟨hd, hd'⟩ | ⟨hd, hd'⟩ := hc.assign name.text hu
  · rw [hd, hd']
    exact parallel_emit (.assigned name.text hu)
  · rw [hd, hd']
    exact parallel_fail _ _ _
  · rw [hd, hd']
    exact parallel_fail _ _ _

/-- A class that is declared on both sides is a new pair under the same name. -/
theorem parallel_declareClass (name : Name) :
    Parallel P Q Pairing.Same (declareClass name) (declareClass name) := by
  refine parallel_newClass_bind _ fun _ _ _ hr => ?_
  exact parallel_emit (.declared name.text ((Value.Matches.cls hr).located _))

/-- Instances of paired classes are a new pair, or both classes got too many arguments. -/
theorem parallel_instantiate (range : Range) {r r' : ClassRef}
    (hr : Q.classes.rel r.index r'.index) {args args' : List Located}
    (ha : MatchList Q args args') :
    Parallel P Q Value.Matches (instantiate range r args) (instantiate range r' args') := by
  refine parallel_store_bind fun s s' hle hs => ?_
  have hr := hle.classes hr
  rw [hs.cls_eq hr]
  cases ha with
  | cons _ hrest =>
      simp only [List.length_cons, hrest.length_eq]
      exact parallel_fail _ _ _
  | nil =>
      refine parallel_newInstance_bind (.instantiated hr _) ⟨r, fun _ => rfl⟩ ⟨r', fun _ => rfl⟩
        fun _ _ _ hnew => ?_
      exact parallel_pure fun hle => .inst (hle.instances hnew)

end Steps

/-- Calls of paired functions with arguments that match are in parallel. -/
def CallersParallel (P : Pairing) (call call' : Caller) : Prop :=
  ∀ {Q : Pairing} (site : Location) {r r' : FunctionRef} {args args' : List Located},
    Q.functions.rel r.index r'.index → MatchList Q args args' →
      Parallel P Q Value.Matches (call site r args) (call' site r' args')

section Programs

variable {P : Pairing} {call call' : Caller}

/-- What is called is a pair of functions or of classes, or nothing that can be called. -/
theorem parallel_callValue (hcall : CallersParallel P call call') {Q : Pairing}
    (range calleeRange : Range) {v v' : Value} (hv : v.Matches Q v')
    {args args' : List Located} (ha : MatchList Q args args') :
    Parallel P Q Value.Matches (callValue call range calleeRange v args)
      (callValue call' range calleeRange v' args') := by
  cases hv with
  | fn h => exact hcall _ h ha
  | cls h => exact parallel_instantiate range h ha
  | null | bool | int | float | string | inst => exact parallel_fail _ _ _

/-! ## expressions and instructions -/

mutual

/-- An expression is in parallel with itself, if the calls in it are. -/
theorem Expr.parallel_eval (hcall : CallersParallel P call call') : (e : Expr) → {Q : Pairing} →
    Parallel P Q Value.Matches (e.eval call) (e.eval call')
  | .literal _ value, _ => by
      rw [Expr.eval, Expr.eval]
      exact parallel_pure fun _ => value.matches_value _
  | .variable _ name, _ => by
      rw [Expr.eval, Expr.eval]
      exact parallel_readVariable name
  | .field _ target name, _ => by
      rw [Expr.eval, Expr.eval]
      refine (target.parallel_eval hcall).bind fun _ _ _ hv => ?_
      exact parallel_readField hv _ name
  | .call range callee _ args, _ => by
      rw [Expr.eval, Expr.eval]
      refine (callee.parallel_eval hcall).bind fun _ _ _ hv => ?_
      refine (Expr.parallel_evalList hcall args).bind fun _ _ hle ha => ?_
      exact parallel_callValue hcall range _ (hv.mono hle) ha
  | .not _ inner, _ => by
      rw [Expr.eval, Expr.eval]
      refine (inner.parallel_eval hcall).bind fun _ _ _ hv => ?_
      refine (parallel_expectBool hv _).bind fun b b' _ hb => ?_
      obtain rfl : b = b' := hb
      exact parallel_pure fun _ => .bool _
  | .eq _ left right, _ => by
      rw [Expr.eval, Expr.eval]
      refine (left.parallel_eval hcall).bind fun _ _ _ hv => ?_
      refine (right.parallel_eval hcall).bind fun _ _ hle hu => ?_
      rw [(hv.mono hle).same_eq hu]
      exact parallel_pure fun _ => .bool _

/-- So are the arguments of a call, one after the other. -/
theorem Expr.parallel_evalList (hcall : CallersParallel P call call') : (es : List Expr) →
    {Q : Pairing} → Parallel P Q MatchList (Expr.evalList call es) (Expr.evalList call' es)
  | [], _ => by
      rw [Expr.evalList, Expr.evalList]
      exact parallel_pure fun _ => .nil
  | e :: rest, _ => by
      rw [Expr.evalList, Expr.evalList]
      refine (e.parallel_eval hcall).bind fun _ _ _ hv => ?_
      refine (Expr.parallel_evalList hcall rest).bind fun _ _ hle hvs => ?_
      refine parallel_pure fun hle' => ?_
      exact .cons (((hv.mono hle).mono hle').located _) (lasting_list.mono hle' hvs)

end

mutual

/-- An instruction is in parallel with itself, if the calls in it are. -/
theorem Instr.parallel_run (hcall : CallersParallel P call call') : (instr : Instr) →
    {Q : Pairing} → Parallel P Q MatchOption (instr.run call) (instr.run call')
  | .declare _ name init, _ => by
      rw [Instr.run, Instr.run]
      refine (init.parallel_eval hcall).bind fun _ _ _ hv => ?_
      refine (parallel_emit (.declared name.text (hv.located _))).bind fun _ _ _ _ => ?_
      exact parallel_pure fun _ => .none
  | .assign _ name expr, _ => by
      rw [Instr.run, Instr.run]
      refine (expr.parallel_eval hcall).bind fun _ _ _ hv => ?_
      refine (parallel_assignVariable name (hv.located _)).bind fun _ _ _ _ => ?_
      exact parallel_pure fun _ => .none
  | .setField _ target field expr, _ => by
      rw [Instr.run, Instr.run]
      refine (target.parallel_eval hcall).bind fun _ _ _ howner => ?_
      refine (expr.parallel_eval hcall).bind fun _ _ hle hv => ?_
      refine (parallel_writeField (howner.mono hle) _ field hv).bind fun _ _ _ _ => ?_
      exact parallel_pure fun _ => .none
  | .classDecl _ name, _ => by
      rw [Instr.run, Instr.run]
      refine (parallel_declareClass name).bind fun _ _ _ _ => ?_
      exact parallel_pure fun _ => .none
  | .ifThen _ test body, _ => by
      rw [Instr.run, Instr.run]
      refine (test.parallel_eval hcall).bind fun _ _ _ hv => ?_
      refine (parallel_expectBool hv _).bind fun holds holds' _ hholds => ?_
      obtain rfl : holds = holds' := hholds
      cases holds with
      | true => exact body.parallel_run hcall
      | false => exact parallel_pure fun _ => .none
  | .ifElse _ test body otherwise, _ => by
      rw [Instr.run, Instr.run]
      refine (test.parallel_eval hcall).bind fun _ _ _ hv => ?_
      refine (parallel_expectBool hv _).bind fun holds holds' _ hholds => ?_
      obtain rfl : holds = holds' := hholds
      cases holds with
      | true => exact body.parallel_run hcall
      | false => exact otherwise.parallel_run hcall
  | .eval _ expr, _ => by
      rw [Instr.run, Instr.run]
      refine (expr.parallel_eval hcall).bind fun _ _ _ hv => ?_
      exact parallel_pure fun hle => .some ((hv.mono hle).located _)

theorem Block.parallel_run (hcall : CallersParallel P call call') : (block : Block) →
    {Q : Pairing} → Parallel P Q MatchOption (block.run call) (block.run call')
  | .mk _ instrs, _ => by
      rw [Block.run, Block.run]
      exact (Instr.parallel_runList hcall none none .none instrs).inBlock lasting_option

/-- Instructions are in parallel with themselves from matching latest values. -/
theorem Instr.parallel_runList (hcall : CallersParallel P call call')
    (latest latest' : Option Located) {Q : Pairing}
    (hlatest : MatchOption Q latest latest') : (instrs : List Instr) →
    Parallel P Q MatchOption (Instr.runList call latest instrs) (Instr.runList call' latest' instrs)
  | [] => by
      rw [Instr.runList, Instr.runList]
      exact parallel_pure fun hle => lasting_option.mono hle hlatest
  | instr :: rest => by
      rw [Instr.runList, Instr.runList]
      exact (instr.parallel_run hcall).bind fun _ _ _ hv => Instr.parallel_runList hcall _ _ hv rest

end

/-! ## programs -/

/-- A program is in parallel with itself, whether it completes or fails. -/
theorem Program.parallel_run (hcall : CallersParallel P call call') {Q : Pairing}
    (program : Program) :
    Parallel P Q MatchOption (program.run call) (program.run call') := by
  unfold Program.run
  refine (parallel_emit (.programStarted _)).bind fun _ _ _ _ => ?_
  refine (Instr.parallel_runList hcall none none .none program).settle.bind fun o o' _ ho => ?_
  cases ho with
  | ok hv =>
      refine (parallel_emit .programCompleted).bind fun _ _ hle _ => ?_
      exact parallel_pure fun hle' => lasting_option.mono hle' (lasting_option.mono hle hv)
  | error e =>
      exact (parallel_emit (.programAborted e)).bind fun _ _ _ _ => parallel_throw _

end Programs

end FieldScript
