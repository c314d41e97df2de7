import FieldScript.Proofs.ParallelRequests

/-!
# FieldScript.Proofs.Identity

References lead to what they were given out for.

Whatever a variable, a field or a value that is being evaluated refers to exists, at every
moment of a session (`Session.Sound`).  That is a case of running in parallel: a session is
abreast of itself, everything standing for itself, because only what exists is paired.  It
takes functions that make no references up (`Host.HandsOn`).

Nothing that was made is ever made again: a class that is declared, or an instance that a
call of a class answers, is none of those from before (`Store.NewClass`,
`Store.NewInstance`), whatever its name.
-/

namespace FieldScript

/-! ## what exists -/

/-- What a value refers to exists in a store. -/
def Value.ExistsIn (s : Store) : Value → Prop
  | .cls ref => ref.index < s.classes.size
  | .inst ref => ref.index < s.instances.size
  | .fn ref => ref.index < s.functions.size
  | .null | .bool _ | .int _ | .float _ | .string _ => True

/-- No variable and no field refers to what does not exist, and every instance has a class
that exists. -/
structure Session.Sound (s : Session) : Prop where
  vars : ∀ c ∈ s.contexts, ∀ scope ∈ c.scopes, ∀ {name v}, (name, v) ∈ scope.vars.entries →
    v.value.ExistsIn s.store
  fields : ∀ {ref}, (Value.inst ref).ExistsIn s.store →
    ∀ {name v}, (name, v) ∈ (s.store.inst ref).fields.entries → v.ExistsIn s.store
  classes : ∀ {ref}, (Value.inst ref).ExistsIn s.store →
    (Value.cls (s.store.inst ref).cls).ExistsIn s.store

/-- What is evaluated, run, supplied or called in a world comes to values that exist then. -/
structure World.YieldsExisting (call : Caller) (w : World) : Prop where
  expr : ∀ (e : Expr) {value w'}, (e.eval call).result w = (.ok value, w') →
    value.ExistsIn w'.store
  args : ∀ (es : List Expr) {values w'}, (Expr.evalList call es).result w = (.ok values, w') →
    ∀ v ∈ values, v.value.ExistsIn w'.store
  program : ∀ (program : Program) {v w'}, (program.run call).result w = (.ok (some v), w') →
    v.value.ExistsIn w'.store
  supplied : ∀ (args : List Argument) {values w'},
    (Argument.evalAll [] args).result w = (.ok values, w') → ∀ v ∈ values, v.value.ExistsIn w'.store
  function : ∀ (site : Location) {ref args}, (Value.fn ref).ExistsIn w.store →
    (∀ v ∈ args, v.value.ExistsIn w.store) →
      ∀ {value w'}, (call site ref args).result w = (.ok value, w') → value.ExistsIn w'.store

/-- A value is an instance of just this class, without fields, and the same as nothing that
existed before. -/
structure Store.NewInstance (before after : Store) (cls : ClassRef) (value : Value) : Prop where
  made : ∃ ref, value = .inst ref ∧ value.ExistsIn after ∧ after.inst ref = ⟨cls, ∅⟩
  distinct : ∀ {v}, v.ExistsIn before → v.same value = false ∧ value.same v = false

/-- A class that goes by this name and is the same as nothing that existed before.
Everything from before is unchanged. -/
structure Store.NewClass (before after : Store) (name : Name) (ref : ClassRef) : Prop where
  made : (Value.cls ref).ExistsIn after ∧ after.cls ref = ⟨name.text, name.range⟩
  distinct : ∀ {v}, v.ExistsIn before → v.same (.cls ref) = false ∧ (Value.cls ref).same v = false
  classes : ∀ {other}, (Value.cls other).ExistsIn before → after.cls other = before.cls other
  instances : after.instances = before.instances

namespace Value

/-- What exists goes on existing. -/
theorem ExistsIn.mono {s s' : Store} {v : Value} (h : v.ExistsIn s) (hs : s.Reaches s') :
    v.ExistsIn s' := by
  cases v with
  | cls ref => exact Nat.lt_of_lt_of_le h hs.classes
  | inst ref => exact Nat.lt_of_lt_of_le h hs.instances
  | fn ref => exact Nat.lt_of_lt_of_le h hs.functions
  | null | bool | int | float | string => trivial

/-- A reference that is yet to be given out is none of those that exist. -/
theorem ExistsIn.same_nextInstance {s : Store} {v : Value} (h : v.ExistsIn s) :
    v.same (.inst s.nextInstance) = false ∧ (Value.inst s.nextInstance).same v = false := by
  cases v with
  | inst ref =>
      have hne : ref ≠ s.nextInstance := by
        rintro rfl
        exact Nat.lt_irrefl _ h
      simp [same, hne, hne.symm]
  | null | bool | int | float | string | cls | fn => exact ⟨rfl, rfl⟩

/-- A class that is still to be made is the same as nothing that exists. -/
theorem ExistsIn.same_nextClass {s : Store} {v : Value} (h : v.ExistsIn s) :
    v.same (.cls s.nextClass) = false ∧ (Value.cls s.nextClass).same v = false := by
  cases v with
  | cls ref =>
      have hne : ref ≠ s.nextClass := by
        rintro rfl
        exact Nat.lt_irrefl _ h
      simp [same, hne, hne.symm]
  | null | bool | int | float | string | inst | fn => exact ⟨rfl, rfl⟩

end Value

/-! ## everything stands for itself -/

def Matching.identity : Matching where
  rel := Eq
  unique := by
    rintro a b _ _ rfl rfl
    rfl

/-- Each class, instance and function stands for itself, and each reading is its own. -/
def Pairing.identity : Pairing where
  classes := .identity
  instances := .identity
  functions := .identity
  readings := Eq
  readings_succ := by
    rintro n _ rfl
    rfl

/-- A host whose functions hand on only references that they were given or have come
across. -/
def Host.HandsOn (h : Host) : Prop := h.Matches .identity h

/-- Functions that run stored scripts make no references up. -/
theorem Host.handsOn_ofScripts (scripts : Library.Scripts) (clock : Nat → Reading) :
    (ofScripts scripts clock).HandsOn := by
  refine matches_ofScripts scripts ?_
  intro n n' h
  obtain rfl : n = n' := h
  rfl

/-- The references that exist in a store, each standing for itself. -/
abbrev Store.pairs (s : Store) : Pairing := Pairing.identity.upTo s s

/-- A value exists if it stands for itself. -/
theorem Value.existsIn_iff {s : Store} {v : Value} : v.ExistsIn s ↔ v.Matches s.pairs v := by
  constructor
  · intro h
    cases v with
    | null => exact .null
    | bool b => exact .bool b
    | int i => exact .int i
    | float x => exact .float x
    | string t => exact .string t
    | cls ref => exact .cls ⟨rfl, h, h⟩
    | inst ref => exact .inst ⟨rfl, h, h⟩
    | fn ref => exact .fn ⟨rfl, h, h⟩
  · intro h
    cases h with
    | cls hr => exact hr.2.1
    | inst hr => exact hr.2.1
    | fn hr => exact hr.2.1
    | null | bool | int | float | string => trivial

/-- What is bound in a map related to itself is related to itself. -/
theorem Bindings.Related.mem_self {α : Type} {R : α → α → Prop} {b : Bindings α}
    (h : b.Related R b) {name : String} {v : α} (hmem : (name, v) ∈ b.entries) : R v v := by
  have hpair := List.forall₂_same.mp h (name, v) hmem
  exact hpair.2

/-- In a context that stands for itself, whatever is bound exists. -/
theorem Context.Matches.existsIn {s : Store} {c : Context} (hc : c.Matches s.pairs c)
    {scope : Scope} (hscope : scope ∈ c.scopes) {name : String} {v : Located}
    (hv : (name, v) ∈ scope.vars.entries) : v.value.ExistsIn s := by
  have hvars := (List.forall₂_same.mp hc.frames.scopes scope hscope).vars
  exact Value.existsIn_iff.mpr (hvars.mem_self hv).value

section Evaluating

variable {α : Type} {R : Pairing → α → α → Prop} {w w' : World}

/-- What a computation answers that is in parallel with itself. -/
theorem Parallel.answer_self {x : Exec α} (hw : w.Abreast .identity w)
    (hx : Parallel .identity w.store.pairs R x x) {a : α} (hrun : x.result w = (.ok a, w')) :
    R w'.store.pairs a a := by
  have hmeets := hx.meets hw le_rfl
  rw [Exec.result] at hrun
  cases h : x ⟨w, []⟩ with
  | ok a' m =>
      rw [h] at hrun hmeets
      cases hrun
      cases hmeets with
      | answered _ hab => exact hab
  | error stop m =>
      rw [h] at hrun
      cases hrun

/-- In a world that is abreast of itself, all that is evaluated comes to what exists. -/
theorem Host.HandsOn.yieldsExisting {host : Host} (hh : host.HandsOn) (hw : w.Abreast .identity w)
    (depth : Nat) : w.YieldsExisting (host.call depth) where
  expr e _ _ hrun := by
    have hv := (e.parallel_eval (hh.callersParallel depth)).answer_self hw hrun
    exact Value.existsIn_iff.mpr hv
  args es _ _ hrun v hv := by
    have hvs := (Expr.parallel_evalList (hh.callersParallel depth) es).answer_self hw hrun
    exact Value.existsIn_iff.mpr (List.forall₂_same.mp hvs v hv).value
  program p _ _ hrun := by
    have hv := (Program.parallel_run (hh.callersParallel depth) p).answer_self hw hrun
    cases hv with
    | some hv => exact Value.existsIn_iff.mpr hv.value
  supplied args _ _ hrun v hv := by
    have hvs := (Argument.parallel_evalAll args .nil).answer_self hw hrun
    exact Value.existsIn_iff.mpr (List.forall₂_same.mp hvs v hv).value
  function site _ args href hargs _ _ hrun := by
    have ha : MatchList w.store.pairs args args := by
      refine List.forall₂_same.mpr fun v hv => ?_
      exact ⟨Value.existsIn_iff.mp (hargs v hv), rfl⟩
    have href : w.store.pairs.functions.rel _ _ := ⟨rfl, href, href⟩
    have hv := (hh.callersParallel depth site href ha).answer_self hw hrun
    exact Value.existsIn_iff.mpr hv

end Evaluating

/-! ## new objects -/

/-- What is added to the instances is new. -/
theorem Store.newInstance_addInstance (s : Store) (cls : ClassRef) :
    s.NewInstance (s.addInstance cls) cls (.inst s.nextInstance) where
  made := by
    have hexists : (Value.inst s.nextInstance).ExistsIn (s.addInstance cls) := by
      simp [Value.ExistsIn, nextInstance, addInstance]
    exact ⟨_, rfl, hexists, s.inst_addInstance_next cls⟩
  distinct hv := hv.same_nextInstance

/-- What is added to the classes is new. -/
theorem Store.newClass_addClass (s : Store) (name : Name) :
    s.NewClass (s.addClass ⟨name.text, name.range⟩) name s.nextClass where
  made := by
    refine ⟨?_, s.cls_addClass_next _⟩
    simp [Value.ExistsIn, nextClass, addClass]
  distinct hv := hv.same_nextClass
  classes hother := by
    obtain ⟨_, hkept⟩ := (s.grows_addClass _).classes _ hother
    exact hkept
  instances := rfl

section Making

variable {w w' : World}

/-- A call of a class that succeeds answers a new instance of it. -/
theorem newInstance_of_callValue {call : Caller} {range calleeRange : Range} {cls : ClassRef}
    {args : List Located} {value : Value}
    (h : (callValue call range calleeRange (.cls cls) args).result w = (.ok value, w')) :
    w.store.NewInstance w'.store cls value := by
  cases args with
  | cons arg rest => simp [callValue, instantiate, Exec.result, Exec.bind_run] at h
  | nil =>
      have hrun : (callValue call range calleeRange (.cls cls) []).result w =
          (.ok (.inst w.store.nextInstance), w.after (.instantiated cls (w.store.cls cls).name)) :=
        rfl
      rw [hrun] at h
      cases h
      exact w.store.newInstance_addInstance cls

/-- A class declaration succeeds and binds its name to a new class. -/
theorem newClass_of_classDecl (call : Caller) (range : Range) (name : Name) (w : World) :
    ∃ ref w', (Instr.run call (.classDecl range name)).result w = (.ok none, w') ∧
      w'.context = w.context.declare name.text ⟨.cls ref, .source name.range⟩ ∧
      w.store.NewClass w'.store name ref := by
  have hnew := w.store.newClass_addClass name
  refine ⟨w.store.nextClass, ⟨_, w.store.addClass ⟨name.text, name.range⟩⟩, ?_, rfl, hnew⟩
  rw [Instr.run]
  rfl

end Making

/-! ## sessions -/

namespace Session

/-- A session that is abreast of itself: only what exists is referred to. -/
structure AbreastOfItself (s : Session) : Prop where
  contexts : ∀ c ∈ s.contexts, c.Matches s.store.pairs c
  store : s.store.Abreast .identity s.store

/-- A session that is abreast of itself refers only to what exists. -/
theorem AbreastOfItself.sound {s : Session} (h : s.AbreastOfItself) : s.Sound where
  vars c hc _ hscope _ _ hv := (h.contexts c hc).existsIn hscope hv
  fields href _ _ hv := by
    have hfields := (h.store.store.inst ⟨rfl, href, href⟩).fields
    exact Value.existsIn_iff.mpr (hfields.mem_self hv)
  classes href := by
    obtain ⟨_, hcls, _⟩ := (h.store.store.inst ⟨rfl, href, href⟩).cls
    exact hcls

theorem store_of_world? {s : Session} {index : Nat} {w : World} (hw : s.world? index = some w) :
    w.store = s.store := by
  rw [world?, Option.map_eq_some_iff] at hw
  obtain ⟨c, -, rfl⟩ := hw
  rfl

theorem AbreastOfItself.world {s : Session} (h : s.AbreastOfItself) {index : Nat} {w : World}
    (hw : s.world? index = some w) : w.Abreast .identity w := by
  rw [world?, Option.map_eq_some_iff] at hw
  obtain ⟨c, hc, rfl⟩ := hw
  exact ⟨h.contexts c (List.mem_of_getElem? hc), h.store⟩

/-- Nothing is referred to before anything exists. -/
theorem abreast_blank (policy : Policy) (P : Pairing) (hahead : P.Ahead ∅ ∅) :
    (blank policy).Abreast P (blank policy) where
  context := ⟨⟨.empty, .empty, .nil, rfl⟩, rfl, rfl⟩
  store := by
    -- nothing is paired, for there is nothing yet
    refine ⟨⟨?_, ?_, ?_⟩, hahead⟩
    · intro r r' h
      exact absurd h.2.1 (Nat.not_lt_zero _)
    · intro r r' h
      exact absurd h.2.1 (Nat.not_lt_zero _)
    · intro r r' h
      exact absurd h.2.1 (Nat.not_lt_zero _)

/-- A session that starts is abreast of itself. -/
theorem abreastOfItself_start (policy : Policy) (embedded : Bool) :
    (start policy embedded).2.AbreastOfItself := by
  have hblank : (blank policy).Abreast .identity (blank policy) :=
    abreast_blank policy .identity ⟨fun _ => rfl, fun _ => rfl, fun _ => rfl, rfl⟩
  have hlibrary : Parallel .identity (∅ : Store).pairs MatchBindings
      (do extend embedded (← Library.build)) (do extend embedded (← Library.build)) :=
    Library.parallel_build.bind fun _ _ _ h => parallel_extend embedded h
  have hmeets := hlibrary.meets hblank le_rfl
  have hmake := (Library.has_build supplying_supplies).bind fun library =>
    supplies_extend embedded library
  obtain ⟨library, events, hrun, _⟩ := hmake ⟨blank policy, []⟩
  rw [hrun] at hmeets
  rw [start, hrun]
  cases hmeets with
  | answered hn hlibrary =>
      refine ⟨fun c hc => ?_, (hn.abreast hblank).store⟩
      obtain rfl := List.mem_singleton.mp hc
      exact ⟨⟨hlibrary, .empty, .nil, rfl⟩, rfl, rfl⟩

/-- The events of a request keep a session abreast of itself. -/
theorem AbreastOfItself.happenings {host : Host} (hh : host.HandsOn) {s : Session}
    (h : s.AbreastOfItself) {index depth : Nat} {request : Request} {w : World}
    (hw : s.world? index = some w) {events : List Event}
    (hsofar : events <:+ (request.perform host depth).journal w) :
    (s.afterAll (happenings index events)).AbreastOfItself := by
  have hstart := h.world hw
  have hfollows := (hh.answer depth request hstart).2.drop
    (((request.perform host depth).journal w).length - events.length)
  rw [← List.suffix_iff_eq_drop.mp hsofar] at hfollows
  have hnow := hfollows.abreast hstart
  have hreach := w.reaches_afterAll events
  rw [world?_happenings hw]
  refine ⟨fun c hc => ?_, hnow.store⟩
  obtain hmem | rfl := List.mem_or_eq_of_mem_set hc
  · rw [store_of_world? hw] at hreach
    exact (h.contexts c hmem).mono (Pairing.identity.upTo_mono hreach hreach)
  · exact hnow.context

/-- A copy of a context refers to what exists, as the context does. -/
theorem AbreastOfItself.clone {s : Session} (h : s.AbreastOfItself) (index : Nat) :
    (s.clone index).AbreastOfItself := by
  rw [Session.clone]
  cases hc : s.contexts[index]? with
  | none => exact h
  | some c =>
      refine ⟨fun c' hc' => ?_, h.store⟩
      obtain hmem | hlast := List.mem_append.mp hc'
      · exact h.contexts c' hmem
      · rw [List.mem_singleton.mp hlast]
        exact h.contexts c (List.mem_of_getElem? hc)

variable {host : Host} {s : Session} (hh : host.HandsOn) (hs : s.AbreastOfItself)

include hh hs

/-- Requests and copies keep a session abreast of itself. -/
theorem Past.abreastOfItself {past : List Happening} (h : Past host s past) :
    (s.afterAll past).AbreastOfItself := by
  induction h with
  | start => exact hs
  | request _ hw _ ih =>
      rw [afterAll_append]
      exact ih.happenings hh hw List.suffix_rfl
  | clone _ index ih => exact ih.clone index

/-- So does each single event of a request. -/
theorem Moment.abreastOfItself {now : List Happening} (h : Moment host s now) :
    (s.afterAll now).AbreastOfItself := by
  cases h with
  | between h => exact h.abreastOfItself hh hs
  | during h hw hsofar =>
      rw [afterAll_append]
      exact (h.abreastOfItself hh hs).happenings hh hw hsofar

omit hh hs in
/-- Stores only grow along a timeline. -/
theorem reaches_append (s : Session) (later earlier : List Happening) :
    (s.afterAll earlier).store.Reaches (s.afterAll (later ++ earlier)).store := by
  rw [afterAll_append]
  refine related_afterAll (R := Store.Reaches) ?_ .trans Store.reaches_after _ later
  intro store
  exact .rfl

end Session

/-- At every moment of a session, whatever a variable or a field refers to exists, instances
have classes that exist, and what is evaluated, run, supplied or called then comes to values
that exist.  What exists goes on to exist, and classes keep their names and the places of their
declarations.  A call of a class that succeeds answers an instance of this class without
fields, and a class declaration makes a class of this name; neither is the same as anything
from before, and a declaration leaves all instances as they were. -/
theorem Session.Moment.identity_sound {host : Host} (hh : host.HandsOn) {policy : Policy}
    {embedded : Bool} {now : List Happening} (h : Moment host (start policy embedded).2 now) :
    let session := (start policy embedded).2.afterAll
    (session now).Sound ∧
      (∀ earlier, earlier <:+ now →
        (∀ v : Value, v.ExistsIn (session earlier).store → v.ExistsIn (session now).store) ∧
          ∀ cls : ClassRef, (Value.cls cls).ExistsIn (session earlier).store →
            (session now).store.cls cls = (session earlier).store.cls cls) ∧
      ∀ index w, (session now).world? index = some w → ∀ depth : Nat,
        w.YieldsExisting (host.call depth) ∧
          (∀ range calleeRange cls args value w',
            (callValue (host.call depth) range calleeRange (.cls cls) args).result w =
                (.ok value, w') →
              w.store.NewInstance w'.store cls value) ∧
          ∀ range name, ∃ cls w',
            (Instr.run (host.call depth) (.classDecl range name)).result w = (.ok none, w') ∧
              w'.context = w.context.declare name.text ⟨.cls cls, .source name.range⟩ ∧
              w.store.NewClass w'.store name cls := by
  intro session
  have hself := h.abreastOfItself hh (abreastOfItself_start policy embedded)
  refine ⟨hself.sound, ?_, fun index w hw depth => ⟨?_, ?_, ?_⟩⟩
  · rintro earlier ⟨later, rfl⟩
    exact ⟨fun v hv => hv.mono (reaches_append _ later earlier),
      fun cls hcls => ((grows_append _ later earlier).classes cls hcls).2⟩
  · exact hh.yieldsExisting (hself.world hw) depth
  · exact fun _ _ _ _ _ _ => newInstance_of_callValue
  · exact fun range name => newClass_of_classDecl _ range name w

/-- Declares a class and makes an instance of it. -/
def declaresAndMakes : Program :=
  [.classDecl .synthetic ⟨.synthetic, "A"⟩,
    .declare .synthetic ⟨.synthetic, "p"⟩
      (.call .synthetic (.variable .synthetic ⟨.synthetic, "A"⟩) .synthetic [])]

/-- Run in a context and again in a copy of it, it leaves two classes of one name, the first
as it was, and a new instance of the second is not the instance of the first. -/
theorem Session.identity_sound_sameName :
    let s := (start .raise false).2
    let earlier := s.answered failingHost 3 [] 0 (.run declaresAndMakes)
    let now := s.answered failingHost 3 (.copied 0 :: earlier) 1 (.run declaresAndMakes)
    (s.afterAll now).Sound ∧ (s.afterAll now).store.classes.size = 2 ∧
      (s.afterAll now).store.cls ⟨0⟩ = ⟨"A", .synthetic⟩ ∧
      ∃ w value w', (s.afterAll now).world? 0 = some w ∧
        (callValue (failingHost.call 3) .synthetic .synthetic (.cls ⟨1⟩) []).result w =
          (.ok value, w') ∧
        value.same (.inst ⟨0⟩) = false := by
  intro s earlier now
  have hearlier : Past failingHost s earlier := Past.start.answered (by decide +kernel)
  have hnow : Past failingHost s now := (hearlier.clone 0).answered (by decide +kernel)
  have hsuffix : earlier <:+ now := (List.suffix_cons _ _).trans (suffix_answered s _ _ _ _ _)
  have hsize : (s.afterAll now).store.classes.size = 2 := by decide +kernel
  have hinst : (Value.inst ⟨0⟩).ExistsIn (s.afterAll now).store := by
    show 0 < (s.afterAll now).store.instances.size
    decide +kernel
  have hcls : (Value.cls ⟨0⟩).ExistsIn (s.afterAll earlier).store := by
    show 0 < (s.afterAll earlier).store.classes.size
    decide +kernel
  have hinfo : (s.afterAll earlier).store.cls ⟨0⟩ = ⟨"A", .synthetic⟩ := by decide +kernel
  obtain ⟨w, hw⟩ : ∃ w, (s.afterAll now).world? 0 = some w :=
    Option.isSome_iff_exists.mp (by decide +kernel)
  obtain ⟨hsound, hkept, hworlds⟩ :=
    Moment.identity_sound (Host.handsOn_ofScripts _ _) (.between hnow)
  have hmakes := (hworlds 0 w hw 3).2.1 .synthetic .synthetic ⟨1⟩ [] _ _ rfl
  rw [← store_of_world? hw] at hinst
  exact ⟨hsound, hsize, ((hkept earlier hsuffix).2 ⟨0⟩ hcls).trans hinfo, w, _, _, hw, rfl,
    (hmakes.distinct hinst).2⟩

end FieldScript
