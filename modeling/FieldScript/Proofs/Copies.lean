import Mathlib.Data.List.Forall2
import FieldScript.Proofs.Identity

/-!
# FieldScript.Proofs.Copies

Copies of a context go their own ways.

A context and its copy share the instances that could be reached when the copy was made, and
nothing else: what either makes later, the other never comes across.  As long as no field of
a shared instance is set, every context of a session answers as it would if it alone had been
asked what it and the contexts it was copied from have been asked (`Session.copies_independent`).

The proof compares each context with one that is asked the same with nothing in between.
What exists in the two stores is paired, and requests keep the pairs of different contexts
apart but for shared instances (`Session.Apart`).
-/

namespace FieldScript

/-! ## sessions turn by turn -/

/-- Something that is asked of a context: a request, how deep its calls may go, and what the
clock shows in the course of it. -/
structure Ask where
  request : Request
  depth : Nat
  readings : Nat → Reading

/-- The host when the clock is to show these readings from now on. -/
def Host.withReadings (h : Host) (readings : Nat → Reading) (now : Store) : Host :=
  { h with clock := fun n => readings (n - now.clockReads) }

namespace Ask

def answer (host : Host) (a : Ask) (w : World) : Answer × World :=
  a.request.answer (host.withReadings a.readings w.store) a.depth w

/-- The events of carrying it out. -/
def journal (host : Host) (a : Ask) (w : World) : List Event :=
  (a.request.perform (host.withReadings a.readings w.store) a.depth).journal w

end Ask

/-- A turn of a session. -/
inductive Turn where
  /-- The context at this index is asked. -/
  | ask (index : Nat) (a : Ask)
  /-- The context at this index is copied. -/
  | copy (index : Nat)

/-- What a context was asked and what it answered, latest first.  A copy has the history of
the context it was made from. -/
structure History where
  asks : List Ask
  answers : List Answer

namespace Session

/-- The session after a turn. -/
def afterTurn (host : Host) (s : Session) : Turn → Session
  | .ask index a => (s.answer (host.withReadings a.readings s.store) a.depth index a.request).2
  | .copy index => s.clone index

/-- The session after turns, latest first. -/
def afterTurns (host : Host) (s : Session) : List Turn → Session
  | [] => s
  | turn :: earlier => (s.afterTurns host earlier).afterTurn host turn

/-- The histories of the contexts after turns. -/
def histories (host : Host) (s : Session) : List Turn → List History
  | [] => s.contexts.map fun _ => ⟨[], []⟩
  | .ask index a :: earlier =>
    match (s.afterTurns host earlier).world? index with
    | none => s.histories host earlier
    | some w => (s.histories host earlier).modify index fun h =>
        ⟨a :: h.asks, (a.answer host w).1 :: h.answers⟩
  | .copy index :: earlier =>
    s.histories host earlier ++ (s.histories host earlier)[index]?.toList

end Session

/-- The world after these asks, latest first, with nothing in between. -/
def World.afterAsks (host : Host) (w : World) : List Ask → World
  | [] => w
  | a :: earlier => (a.answer host (w.afterAsks host earlier)).2

/-- The answers to these asks. -/
def World.answers (host : Host) (w : World) : List Ask → List Answer
  | [] => []
  | a :: earlier => (a.answer host (w.afterAsks host earlier)).1 :: w.answers host earlier

/-! ## what a copy shares -/

/-- What can be reached from a context through variables and fields. -/
inductive World.Reachable (w : World) : Value → Prop where
  | held {scope : Scope} (hscope : scope ∈ w.context.scopes) {name : String} {v : Located}
      (h : (name, v) ∈ scope.vars.entries) : Reachable w v.value
  | field {ref : InstanceRef} (href : Reachable w (.inst ref)) {name : String} {v : Value}
      (h : (name, v) ∈ (w.store.inst ref).fields.entries) : Reachable w v

namespace Session

/-- In the course of turns the instance could be reached from a context when that was
copied. -/
def Shared (host : Host) (s : Session) : List Turn → InstanceRef → Prop
  | [], _ => False
  | .ask _ _ :: earlier, ref => s.Shared host earlier ref
  | .copy index :: earlier, ref =>
    s.Shared host earlier ref ∨
      ∃ w, (s.afterTurns host earlier).world? index = some w ∧ w.Reachable (.inst ref)

/-- No turn sets a field of an instance that a copy made before shares. -/
def LeavesShared (host : Host) (s : Session) (turns : List Turn) : Prop :=
  ∀ ⦃index a earlier⦄, .ask index a :: earlier <:+ turns →
    ∀ ⦃w⦄, (s.afterTurns host earlier).world? index = some w →
      ∀ ⦃ref field value⦄, .fieldSet ref field value ∈ a.journal host w →
        ¬ s.Shared host earlier ref

end Session

/-- A host whose functions treat all references alike, whichever they are. -/
def Host.Uniform (h : Host) : Prop :=
  ∀ {P : Pairing} {readings readings' : Nat → Reading},
    (∀ {n n'}, P.readings n n' → readings n = readings' n') →
      { h with clock := readings }.Matches P { h with clock := readings' }

theorem Host.uniform_ofScripts (scripts : Library.Scripts) (clock : Nat → Reading) :
    (ofScripts scripts clock).Uniform :=
  fun h => matches_ofScripts scripts h

/-! ## pairs to come -/

/-- The pairs in tables of these sizes, and all that comes after paired position by
position. -/
def Matching.continued (M : Matching) (n n' : Nat) : Matching where
  rel a a' := (M.upTo n n').rel a a' ∨ (n ≤ a ∧ n' ≤ a' ∧ a - n = a' - n')
  unique := by
    rintro a b a' b' (⟨ha, _, _⟩ | ⟨_, _, _⟩) (⟨hb, _, _⟩ | ⟨_, _, _⟩)
    · exact M.unique ha hb
    all_goals omega

/-- In a matching that goes on position by position all that comes next is paired. -/
theorem Matching.ahead_continued (M : Matching) (n n' : Nat) : (M.continued n n').Ahead n n' := by
  intro k
  refine .inr ⟨?_, ?_, ?_⟩ <;> omega

/-- No pairs but those of the matching have existed before it goes on. -/
theorem Matching.upTo_continued {M : Matching} {n n' a a' : Nat}
    (h : ((M.continued n n').upTo n n').rel a a') : M.rel a a' := by
  obtain ⟨⟨h, -⟩ | h, _, _⟩ := h
  · exact h
  · omega

namespace Pairing

/-- What exists in these stores is paired as before, and what is yet to be added to them as
it will come. -/
def continued (Q : Pairing) (s s' : Store) : Pairing where
  classes := Q.classes.continued s.classes.size s'.classes.size
  instances := Q.instances.continued s.instances.size s'.instances.size
  functions := Q.functions.continued s.functions.size s'.functions.size
  readings n n' := ∃ k, n = s.clockReads + k ∧ n' = s'.clockReads + k
  readings_succ := by
    rintro _ _ ⟨k, rfl, rfl⟩
    exact ⟨k + 1, rfl, rfl⟩

/-- An instance on the second side that stands for another one. -/
def Uses (Q : Pairing) (ref : InstanceRef) : Prop := ∃ i, Q.instances.rel i ref.index

variable {Q : Pairing} {s s' : Store}

/-- In a pairing that goes on all that does not exist yet is paired. -/
theorem ahead_continued (Q : Pairing) (s s' : Store) : (Q.continued s s').Ahead s s' where
  classes := Q.classes.ahead_continued _ _
  instances := Q.instances.ahead_continued _ _
  functions := Q.functions.ahead_continued _ _
  readings := ⟨0, rfl, rfl⟩

/-- A pairing goes on with all its pairs. -/
theorem le_upTo_continued (h : s.Matches Q s') : Q ≤ (Q.continued s s').upTo s s' where
  classes {a a'} hr := by
    have hrefs : Q.classes.rel (ClassRef.mk a).index (ClassRef.mk a').index := hr
    obtain ⟨hlt, hlt', _⟩ := h.classes hrefs
    exact ⟨.inl ⟨hr, hlt, hlt'⟩, hlt, hlt'⟩
  instances {a a'} hr := by
    have hrefs : Q.instances.rel (InstanceRef.mk a).index (InstanceRef.mk a').index := hr
    obtain ⟨hlt, hlt', _⟩ := h.instances hrefs
    exact ⟨.inl ⟨hr, hlt, hlt'⟩, hlt, hlt'⟩
  functions {a a'} hr := by
    have hrefs : Q.functions.rel (FunctionRef.mk a).index (FunctionRef.mk a').index := hr
    obtain ⟨hlt, hlt', _⟩ := h.functions hrefs
    exact ⟨.inl ⟨hr, hlt, hlt'⟩, hlt, hlt'⟩

/-- What is in use when a pairing has gone on was in use or did not exist. -/
theorem Uses.of_continued {ref : InstanceRef} (h : (Q.continued s s').Uses ref) :
    Q.Uses ref ∨ s'.instances.size ≤ ref.index := by
  obtain ⟨i, ⟨hrel, -⟩ | ⟨-, hnew, -⟩⟩ := h
  · exact .inl ⟨i, hrel⟩
  · exact .inr hnew

theorem Uses.mono {Q' : Pairing} (hle : Q ≤ Q') {ref : InstanceRef} (h : Q.Uses ref) :
    Q'.Uses ref := by
  obtain ⟨i, hrel⟩ := h
  exact ⟨i, hle.instances hrel⟩

end Pairing

/-- Worlds that match are abreast once what is to come is paired, too. -/
theorem World.Matches.abreast {Q : Pairing} {w w' : World} (h : w.Matches Q w') :
    w.Abreast (Q.continued w.store w'.store) w' := by
  have hle := Pairing.le_upTo_continued h.store
  refine ⟨h.context.mono hle, ⟨⟨?_, ?_, ?_⟩, Q.ahead_continued _ _⟩⟩
  · exact fun hr => h.store.classes (Matching.upTo_continued hr)
  · intro r r' hr
    obtain ⟨hlt, hlt', hinst⟩ := h.store.instances (Matching.upTo_continued hr)
    exact ⟨hlt, hlt', hinst.mono hle⟩
  · exact fun hr => h.store.functions (Matching.upTo_continued hr)

/-! ## a request here and there -/

/-- Every event of the second run has one of the first that it matches. -/
theorem Follows.matches_of_mem {P : Pairing} {w w' : World} {events events' : List Event}
    (h : Follows P w w' events events') {event' : Event} (hmem : event' ∈ events') :
    ∃ event, Event.Matches P event event' := by
  induction h with
  | nil => cases hmem
  | cons _ he ih =>
      obtain rfl | hmem := List.mem_cons.mp hmem
      · exact ⟨_, he.mono (P.upTo_le _ _)⟩
      · exact ih hmem

/-- The world after a question is the world after its events. -/
theorem Ask.world_answer (host : Host) (a : Ask) (w : World) :
    (a.answer host w).2 = w.afterAll (a.journal host w) := by
  rw [answer, Request.world_answer, Request.world_perform]
  rfl

/-- Asked the same in worlds that match, a uniform host answers the same, and the worlds match
afterwards.  Only instances that were paired or are new get fields set, and only new ones
become paired. -/
theorem Host.Uniform.ask {host : Host} (hh : host.Uniform) {Q : Pairing} {w w' : World}
    (h : w.Matches Q w') (a : Ask) :
    (a.answer host w).1 = (a.answer host w').1 ∧
      (∀ {ref field value}, .fieldSet ref field value ∈ a.journal host w' →
        Q.Uses ref ∨ w'.store.instances.size ≤ ref.index) ∧
      ∃ Q', (a.answer host w).2.Matches Q' (a.answer host w').2 ∧
        ∀ {ref}, Q'.Uses ref → Q.Uses ref ∨ w'.store.instances.size ≤ ref.index := by
  have hhosts : (host.withReadings a.readings w.store).Matches (Q.continued w.store w'.store)
      (host.withReadings a.readings w'.store) := by
    refine hh ?_
    rintro _ _ ⟨k, rfl, rfl⟩
    simp only [Nat.add_sub_cancel_left]
  obtain ⟨hanswer, hfollows⟩ := hhosts.answer a.depth a.request h.abreast
  refine ⟨hanswer, fun hset => ?_, (Q.continued w.store w'.store).upTo (a.answer host w).2.store
    (a.answer host w').2.store, ?_, fun huses => ?_⟩
  · obtain ⟨event, hevent⟩ := hfollows.matches_of_mem hset
    cases hevent with
    | fieldSet hrel _ _ => exact Pairing.Uses.of_continued ⟨_, hrel⟩
  · rw [Ask.world_answer, Ask.world_answer]
    exact (hfollows.abreast h.abreast).worlds
  · exact (huses.mono (Pairing.upTo_le _ _ _)).of_continued

/-! ## what others do -/

namespace Store

/-- Only setting its own fields changes an instance. -/
theorem inst_after {s : Store} {event : Event} {ref : InstanceRef}
    (hlt : ref.index < s.instances.size) (hne : ∀ field value, event ≠ .fieldSet ref field value) :
    (s.after event).inst ref = s.inst ref := by
  cases event with
  | instantiated cls name => exact s.inst_addInstance cls hlt
  | instanceSupplied cls => exact s.inst_addInstance cls hlt
  | fieldSet other field value =>
      have hother : ref ≠ other := fun heq => hne field value (heq ▸ rfl)
      exact (s.inst_setField other ref field value).trans (if_neg fun h => hother h.1)
  | assigned name value =>
      rw [after, World.after]
      split <;> rfl
  | _ => rfl

/-- Nothing changes a function. -/
theorem fn_after {s : Store} (event : Event) {ref : FunctionRef}
    (hlt : ref.index < s.functions.size) : (s.after event).fn ref = s.fn ref := by
  cases event with
  | functionCreated f =>
      simp [after, World.after, Store.fn, addFunction, Array.getElem?_push, Nat.ne_of_lt hlt]
  | assigned name value =>
      rw [after, World.after]
      split <;> rfl
  | _ => rfl

/-- What is paired does not change as long as none of its fields is set. -/
theorem Matches.after {Q : Pairing} {s s' : Store} (h : s.Matches Q s') {event : Event}
    (hevent : ∀ {ref field value}, event = .fieldSet ref field value → ¬ Q.Uses ref) :
    s.Matches Q (s'.after event) where
  classes hr := by
    obtain ⟨hlt, hlt', heq⟩ := h.classes hr
    obtain ⟨hlt', hkept⟩ := (s'.grows_after event).classes _ hlt'
    exact ⟨hlt, hlt', heq.trans hkept.symm⟩
  instances hr := by
    obtain ⟨hlt, hlt', hinst⟩ := h.instances hr
    refine ⟨hlt, Nat.lt_of_lt_of_le hlt' (s'.reaches_after event).instances, ?_⟩
    rw [inst_after hlt' fun _ _ heq => hevent heq ⟨_, hr⟩]
    exact hinst
  functions hr := by
    obtain ⟨hlt, hlt', heq⟩ := h.functions hr
    exact ⟨hlt, Nat.lt_of_lt_of_le hlt' (s'.reaches_after event).functions,
      heq.trans (fn_after event hlt').symm⟩

/-- Events that set no field of a paired instance keep the second store matching. -/
theorem Matches.afterAll {Q : Pairing} {s s' : Store} (h : s.Matches Q s') {events : List Event}
    (hevents : ∀ {ref field value}, .fieldSet ref field value ∈ events → ¬ Q.Uses ref) :
    s.Matches Q (s'.afterAll events) := by
  induction events with
  | nil => exact h
  | cons event earlier ih =>
      refine Matches.after (ih fun hmem => hevents (List.mem_cons_of_mem _ hmem)) ?_
      rintro ref field value rfl
      exact hevents List.mem_cons_self

end Store

/-! ## the part that can be reached -/

/-- Only instances that can be reached on the second side. -/
def Pairing.reached (Q : Pairing) (w : World) : Pairing where
  classes := Q.classes
  instances :=
    { rel a a' := Q.instances.rel a a' ∧ w.Reachable (.inst ⟨a'⟩)
      unique h h' := Q.instances.unique h.1 h'.1 }
  functions := Q.functions
  readings := Q.readings
  readings_succ := Q.readings_succ

section Reached

variable {Q : Pairing} {w' : World}

/-- A value that can be reached matches over what can be reached. -/
theorem Value.Matches.reached {v v' : Value} (h : v.Matches Q v') (hr : w'.Reachable v') :
    v.Matches (Q.reached w') v' := by
  cases h with
  | null => exact .null
  | bool b => exact .bool b
  | int i => exact .int i
  | float x => exact .float x
  | string s => exact .string s
  | cls h => exact .cls h
  | inst h => exact .inst ⟨h, hr⟩
  | fn h => exact .fn h

/-- A relation that holds element by element can be weakened for the elements there are. -/
theorem forall₂_imp_of_mem {α β : Type} {R R' : α → β → Prop} {l : List α} {l' : List β}
    (h : List.Forall₂ R l l') (himp : ∀ {a b}, b ∈ l' → R a b → R' a b) : List.Forall₂ R' l l' := by
  induction h with
  | nil => exact .nil
  | cons hab _ ih =>
      exact .cons (himp List.mem_cons_self hab) (ih fun hmem => himp (List.mem_cons_of_mem _ hmem))

/-- The same for the values of bindings. -/
theorem Bindings.Related.of_mem {α β : Type} {R R' : α → β → Prop} {b : Bindings α}
    {b' : Bindings β} (h : b.Related R b')
    (himp : ∀ {name v v'}, (name, v') ∈ b'.entries → R v v' → R' v v') : b.Related R' b' := by
  refine forall₂_imp_of_mem h ?_
  intro p p' hmem hpq
  exact ⟨hpq.1, himp hmem hpq.2⟩

/-- Variables that match do so over what can be reached. -/
theorem reached_vars {scope : Scope} (hmem : scope ∈ w'.context.scopes) {vars : Bindings Located}
    (h : vars.Related (Located.Matches Q) scope.vars) :
    vars.Related (Located.Matches (Q.reached w')) scope.vars := by
  refine h.of_mem ?_
  intro name v v' hv hmatch
  exact ⟨hmatch.value.reached (.held hmem hv), hmatch.origin⟩

/-- Where everything matches, it does so by means of what can be reached. -/
theorem World.Matches.reached {w : World} (h : w.Matches Q w') : w.Matches (Q.reached w') w' where
  context := by
    have hscopes : ∀ scope ∈ w'.context.blocks, scope ∈ w'.context.scopes := by
      intro scope hmem
      exact List.mem_append_left _ hmem
    have hbase : (⟨Scope.baseId, w'.context.base⟩ : Scope) ∈ w'.context.scopes :=
      List.mem_append_right _ List.mem_cons_self
    have hlibrary : (⟨Scope.libraryId, w'.context.library⟩ : Scope) ∈ w'.context.scopes :=
      List.mem_append_right _ (List.mem_cons_of_mem _ List.mem_cons_self)
    have hframes := h.context.frames
    have hblocks : List.Forall₂ (Scope.Matches (Q.reached w')) w.context.blocks
        w'.context.blocks := by
      refine forall₂_imp_of_mem hframes.blocks ?_
      intro scope scope' hmem hs
      exact ⟨hs.id, reached_vars (hscopes _ hmem) hs.vars⟩
    exact
      { frames :=
          { library := reached_vars hlibrary hframes.library
            base := reached_vars hbase hframes.base
            blocks := hblocks
            calls := hframes.calls }
        policy := h.context.policy
        counter := h.context.counter }
  store :=
    { classes := h.store.classes
      instances := fun {_ r'} hr => by
        obtain ⟨hlt, hlt', hinst⟩ := h.store.instances hr.1
        have hfields := hinst.fields.of_mem fun hv hmatch => hmatch.reached (.field hr.2 hv)
        exact ⟨hlt, hlt', hinst.cls, hfields⟩
      functions := h.store.functions }

end Reached

/-! ## as if alone -/

/-- A context with this history answered as one that was asked the same with nothing in
between, and matches it by these pairs. -/
structure History.Alone (host : Host) (start : World) (Q : Pairing) (h : History) (w : World) :
    Prop where
  answers : h.answers = start.answers host h.asks
  matching : (start.afterAsks host h.asks).Matches Q w

namespace History.Alone

variable {host : Host} {start w : World} {Q : Pairing} {h : History}

/-- A question that a context answers alone pairs only what it makes, and sets only fields of what
is paired or new. -/
theorem ask (hw : h.Alone host start Q w) (hh : host.Uniform) (a : Ask) :
    (∀ {ref field value}, .fieldSet ref field value ∈ a.journal host w →
        Q.Uses ref ∨ w.store.instances.size ≤ ref.index) ∧
      ∃ Q', Alone host start Q' ⟨a :: h.asks, (a.answer host w).1 :: h.answers⟩
          (a.answer host w).2 ∧
        ∀ {ref}, Q'.Uses ref → Q.Uses ref ∨ w.store.instances.size ≤ ref.index := by
  obtain ⟨hanswer, hset, Q', hmatch, huses⟩ := hh.ask hw.matching a
  exact ⟨hset, Q', ⟨by rw [World.answers, hw.answers, hanswer], hmatch⟩, huses⟩

/-- What others do makes no difference as long as they set no field of what is paired. -/
theorem afterAll {c : Context} {s : Store} (hw : h.Alone host start Q ⟨c, s⟩) {events : List Event}
    (hevents : ∀ {ref field value}, .fieldSet ref field value ∈ events → ¬ Q.Uses ref) :
    h.Alone host start Q ⟨c, s.afterAll events⟩ where
  answers := hw.answers
  matching := ⟨hw.matching.context, hw.matching.store.afterAll hevents⟩

/-- A context that is alone stays so when only what it can reach is paired. -/
theorem reached (hw : h.Alone host start Q w) : h.Alone host start (Q.reached w) w where
  answers := hw.answers
  matching := hw.matching.reached

end History.Alone

/-! ## contexts kept apart -/

namespace Session

variable {host : Host}

/-- A question changes the context that is asked, and the store. -/
theorem afterTurn_ask {t : Session} {index : Nat} {a : Ask} {w : World}
    (hw : t.world? index = some w) :
    t.afterTurn host (.ask index a) =
      ⟨t.contexts.set index (a.answer host w).2.context, (a.answer host w).2.store⟩ := by
  rw [afterTurn, answer, hw, ← store_of_world? hw]
  rfl

/-- A question to a context that does not exist changes nothing. -/
theorem afterTurn_ask_of_none {t : Session} {index : Nat} (a : Ask) (hw : t.world? index = none) :
    t.afterTurn host (.ask index a) = t := by
  rw [afterTurn, answer, hw]

/-- Two contexts of so many have an instance in common only if it is shared. -/
def InCommon (count : Nat) (pairs : Nat → Pairing) (shared : InstanceRef → Prop) : Prop :=
  ∀ ⦃i j⦄, i ≠ j → i < count → j < count → ∀ ⦃ref⦄, (pairs i).Uses ref → (pairs j).Uses ref →
    shared ref

/-- The pairs of one context are other ones. -/
theorem inCommon_update {count index : Nat} {pairs : Nat → Pairing} {Q : Pairing}
    {shared : InstanceRef → Prop}
    (hothers : ∀ {i j}, i ≠ index → j ≠ index → i ≠ j → i < count → j < count →
      ∀ {ref}, (pairs i).Uses ref → (pairs j).Uses ref → shared ref)
    (hindex : ∀ {j}, j ≠ index → j < count →
      ∀ {ref}, Q.Uses ref → (pairs j).Uses ref → shared ref) :
    InCommon count (Function.update pairs index Q) shared := by
  intro i j hne hi hj ref hui huj
  by_cases hieq : i = index
  · have hjne : j ≠ index := fun h => hne (hieq.trans h.symm)
    rw [hieq, Function.update_self] at hui
    rw [Function.update_of_ne hjne] at huj
    exact hindex hjne hj hui huj
  · rw [Function.update_of_ne hieq] at hui
    by_cases hjeq : j = index
    · rw [hjeq, Function.update_self] at huj
      exact hindex hieq hi huj hui
    · rw [Function.update_of_ne hjeq] at huj
      exact hothers hieq hjeq hne hi hj hui huj

/-- Each context is as one that was asked the same alone, by pairs of its own, and contexts
have nothing in common but what is shared. -/
structure Apart (host : Host) (start : World) (shared : InstanceRef → Prop) (t : Session)
    (histories : List History) (pairs : Nat → Pairing) : Prop where
  length : histories.length = t.contexts.length
  alone : ∀ {i : Nat} {h : History} {c : Context}, histories[i]? = some h →
    t.contexts[i]? = some c → h.Alone host start (pairs i) ⟨c, t.store⟩
  common : InCommon t.contexts.length pairs shared

namespace Apart

variable {start : World} {shared : InstanceRef → Prop} {t : Session} {histories : List History}
  {pairs : Nat → Pairing} (h : Apart host start shared t histories pairs)

include h

/-- Every context has a history. -/
theorem history_of_lt {i : Nat} (hi : i < t.contexts.length) :
    ∃ history, histories[i]? = some history := by
  have hlt : i < histories.length := h.length ▸ hi
  exact ⟨_, List.getElem?_eq_getElem hlt⟩

/-- Only instances that exist are in use. -/
theorem lt_of_uses {i : Nat} (hi : i < t.contexts.length) {ref : InstanceRef}
    (huses : (pairs i).Uses ref) : ref.index < t.store.instances.size := by
  obtain ⟨j, hrel⟩ := huses
  have hrefs : (pairs i).instances.rel (InstanceRef.mk j).index ref.index := hrel
  obtain ⟨history, hhistory⟩ := h.history_of_lt hi
  have halone := h.alone hhistory (List.getElem?_eq_getElem hi)
  exact (halone.matching.store.instances hrefs).2.1

/-- A context is asked.  It goes on as the one alone does, and the others do not notice. -/
theorem ask (hh : host.Uniform) {index : Nat} {a : Ask} {w : World} (hw : t.world? index = some w)
    (hspares : ∀ {ref field value}, .fieldSet ref field value ∈ a.journal host w → ¬ shared ref) :
    ∃ pairs', Apart host start shared (t.afterTurn host (.ask index a))
      (histories.modify index fun h => ⟨a :: h.asks, (a.answer host w).1 :: h.answers⟩) pairs' := by
  rw [afterTurn_ask hw]
  rw [world?, Option.map_eq_some_iff] at hw
  obtain ⟨c, hc, rfl⟩ := hw
  have hlt := (List.getElem?_eq_some_iff.mp hc).1
  obtain ⟨history, hhistory⟩ := h.history_of_lt hlt
  obtain ⟨hset, after, hafter, huses⟩ := (h.alone hhistory hc).ask hh a
  -- what the context comes across is its own, shared or new
  have hcommon {j : Nat} (hne : j ≠ index) (hj : j < t.contexts.length) {ref : InstanceRef}
      (hor : (pairs index).Uses ref ∨ t.store.instances.size ≤ ref.index)
      (hother : (pairs j).Uses ref) : shared ref := by
    obtain hold | hnew := hor
    · exact h.common hne hj hlt hother hold
    · exact absurd (h.lt_of_uses hj hother) (Nat.not_lt.mpr hnew)
  refine ⟨Function.update pairs index after, by simp [h.length],
    fun {i history' c'} hi hc' => ?_, ?_⟩
  · rw [List.getElem?_modify] at hi
    by_cases heq : index = i
    · subst heq
      rw [List.getElem?_set_self hlt, Option.some.injEq] at hc'
      simp only [hhistory, if_true, Option.map_eq_map, Option.map_some, Option.some.injEq] at hi
      rw [Function.update_self, ← hi, ← hc']
      exact hafter
    · rw [List.getElem?_set_ne heq] at hc'
      simp only [heq, if_false, Option.map_eq_map, Option.map_id'] at hi
      rw [Function.update_of_ne (Ne.symm heq), Ask.world_answer, World.afterAll_eq]
      refine (h.alone hi hc').afterAll fun hmem huses' => hspares hmem ?_
      exact hcommon (Ne.symm heq) (List.getElem?_eq_some_iff.mp hc').1 (hset hmem) huses'
  · rw [List.length_set]
    exact inCommon_update (fun _ _ hne hi hj _ hui huj => h.common hne hi hj hui huj)
      fun hne hj _ hu hother => hcommon hne hj (huses hu) hother

/-- A context is copied.  The copy has in common with it what can be reached from it. -/
theorem clone {index : Nat} {c : Context} (hc : t.contexts[index]? = some c)
    {shared' : InstanceRef → Prop}
    (hshared : ∀ {ref}, shared ref ∨ (World.mk c t.store).Reachable (.inst ref) → shared' ref) :
    ∃ pairs', Apart host start shared' (t.clone index) (histories ++ histories[index]?.toList)
      pairs' := by
  have hlt := (List.getElem?_eq_some_iff.mp hc).1
  obtain ⟨history, hhistory⟩ := h.history_of_lt hlt
  have hclone : t.clone index = ⟨t.contexts ++ [c], t.store⟩ := by rw [Session.clone, hc]
  rw [hclone, hhistory]
  refine ⟨Function.update pairs t.contexts.length ((pairs index).reached ⟨c, t.store⟩),
    by simp [h.length], fun {i history' c'} hi hc' => ?_, ?_⟩
  · have hlast := (List.getElem?_eq_some_iff.mp hc').1
    rw [List.length_append, List.length_singleton] at hlast
    by_cases heq : i = t.contexts.length
    · subst heq
      rw [List.getElem?_concat_length, Option.some.injEq] at hc'
      rw [← h.length, Option.toList_some, List.getElem?_concat_length, Option.some.injEq] at hi
      rw [Function.update_self, ← hi, ← hc']
      exact (h.alone hhistory hc).reached
    · have hold : i < t.contexts.length := by omega
      rw [List.getElem?_append_left hold] at hc'
      rw [List.getElem?_append_left (h.length ▸ hold)] at hi
      rw [Function.update_of_ne heq]
      exact h.alone hi hc'
  · rw [List.length_append, List.length_singleton]
    refine inCommon_update (fun _ _ hne hi hj _ hui huj => ?_) fun {j} hne hj ref hu hother => ?_
    · exact hshared (.inl (h.common hne (by omega) (by omega) hui huj))
    · obtain ⟨k, hrel, hreach⟩ := hu
      by_cases heq : index = j
      · exact hshared (.inr hreach)
      · exact hshared (.inl (h.common heq hlt (by omega) ⟨k, hrel⟩ hother))

end Apart

/-! ## independence -/

/-- A session starts with one context. -/
theorem contexts_start (policy : Policy) (embedded : Bool) :
    ∃ c, (start policy embedded).2.contexts = [c] := by
  rw [start]
  split <;> exact ⟨_, rfl⟩

/-- At every turn the contexts are apart but for what is shared. -/
theorem LeavesShared.apart {s : Session} {c : Context} (hh : host.Uniform) (hs : s.AbreastOfItself)
    (hc : s.contexts = [c]) {turns : List Turn} (h : s.LeavesShared host turns) :
    ∃ pairs, Apart host ⟨c, s.store⟩ (s.Shared host turns) (s.afterTurns host turns)
      (s.histories host turns) pairs := by
  induction turns with
  | nil =>
      refine ⟨fun _ => s.store.pairs, by simp [histories, afterTurns],
        fun {i h c'} hi hc' => ?_, ?_⟩
      · rw [afterTurns, hc, List.getElem?_singleton] at hc'
        rw [histories, hc, List.map_singleton, List.getElem?_singleton] at hi
        split at hi <;> cases hi
        rw [if_pos ‹_›] at hc'
        cases hc'
        exact ⟨rfl, ⟨hs.contexts c (by simp [hc]), hs.store.store⟩⟩
      · intro i j hne hi hj
        simp only [afterTurns, hc, List.length_singleton] at hi hj
        omega
  | cons turn earlier ih =>
      obtain ⟨pairs, hapart⟩ := ih fun _ _ _ hin => h (hin.trans (List.suffix_cons _ _))
      cases turn with
      | ask index a =>
          rw [afterTurns, histories]
          cases hw : (s.afterTurns host earlier).world? index with
          | none =>
              rw [afterTurn_ask_of_none a hw]
              exact ⟨pairs, hapart⟩
          | some w => exact hapart.ask hh hw fun hset => h List.suffix_rfl hw hset
      | copy index =>
          rw [afterTurns, histories, afterTurn]
          cases hcopy : (s.afterTurns host earlier).contexts[index]? with
          | none =>
              have hnone : (s.histories host earlier)[index]? = none := by
                rw [List.getElem?_eq_none_iff, hapart.length]
                exact List.getElem?_eq_none_iff.mp hcopy
              rw [Session.clone, hcopy, hnone, Option.toList_none, List.append_nil]
              exact ⟨pairs, hapart.length, hapart.alone, fun _ _ hne hi hj _ hui huj =>
                .inl (hapart.common hne hi hj hui huj)⟩
          | some c' =>
              refine hapart.clone hcopy fun hor => hor.imp_right fun hreach => ⟨_, ?_, hreach⟩
              rw [world?, hcopy, Option.map_some]

end Session

/-- A session is copied and asked in any order.  As long as no turn sets a field of an instance
that could be reached from a context when it was copied, every context has answered as one
that was asked the same from the start with nothing in between: with what values, errors and
stops, with what state and what log.  So contexts that were asked the same have answered the
same, whatever was asked of others in the meantime, and whichever session they are in. -/
theorem Session.copies_independent {host : Host} (hh : host.Uniform) (policy : Policy)
    (embedded : Bool) {turns : List Turn} (h : (start policy embedded).2.LeavesShared host turns) :
    let s := (start policy embedded).2
    (s.histories host turns).length = (s.afterTurns host turns).contexts.length ∧
      (∃ w, s.world? 0 = some w ∧
        ∀ history ∈ s.histories host turns, history.answers = w.answers host history.asks) ∧
      ∀ turns', s.LeavesShared host turns' →
        ∀ history ∈ s.histories host turns, ∀ history' ∈ s.histories host turns',
          history.asks = history'.asks → history.answers = history'.answers := by
  intro s
  have hs : s.AbreastOfItself := abreastOfItself_start policy embedded
  obtain ⟨c, hc⟩ : ∃ c, s.contexts = [c] := contexts_start policy embedded
  have halone {turns : List Turn} (h : s.LeavesShared host turns) {history : History}
      (hmem : history ∈ s.histories host turns) :
      history.answers = (World.mk c s.store).answers host history.asks := by
    obtain ⟨pairs, hapart⟩ := h.apart hh hs hc
    obtain ⟨i, hi, rfl⟩ := List.mem_iff_getElem.mp hmem
    have hget := List.getElem?_eq_getElem hi
    exact (hapart.alone hget (List.getElem?_eq_getElem (hapart.length ▸ hi))).answers
  refine ⟨?_, ⟨⟨c, s.store⟩, by rw [world?, hc]; rfl, fun history hmem => halone h hmem⟩, ?_⟩
  · obtain ⟨pairs, hapart⟩ := h.apart hh hs hc
    exact hapart.length
  · intro turns' h' history hmem history' hmem' hsame
    rw [halone h hmem, halone h' hmem', hsame]

/-! ## fields of instances made later -/

/-- Does an event set a field of an instance made before this one? -/
def Event.SetsBefore (made : InstanceRef) : Event → Bool
  | .fieldSet ref _ _ => ref.index < made.index
  | _ => false

/-- A uniform host treats no reference differently, whatever its clock reads. -/
theorem Host.Uniform.handsOn {host : Host} (hh : host.Uniform) (readings : Nat → Reading)
    (now : Store) : (host.withReadings readings now).HandsOn := by
  refine hh ?_
  rintro n _ rfl
  rfl

/-- What can be reached exists. -/
theorem World.Reachable.existsIn {w : World} (hw : w.Abreast .identity w) {v : Value}
    (h : w.Reachable v) : v.ExistsIn w.store := by
  induction h with
  | held hscope hv => exact hw.context.existsIn hscope hv
  | field _ hv ih =>
      exact Value.existsIn_iff.mpr ((hw.store.store.inst ⟨rfl, ih, ih⟩).fields.mem_self hv)

namespace Session

variable {host : Host} {s : Session} (hh : host.Uniform) (hs : s.AbreastOfItself)

include hh hs

/-- Turns lead to no dangling references. -/
theorem AbreastOfItself.afterTurns (turns : List Turn) :
    (s.afterTurns host turns).AbreastOfItself := by
  induction turns with
  | nil => exact hs
  | cons turn earlier ih =>
      rw [Session.afterTurns]
      cases turn with
      | copy index => exact ih.clone index
      | ask index a =>
          cases hw : (s.afterTurns host earlier).world? index with
          | none => rwa [afterTurn_ask_of_none a hw]
          | some w =>
              rw [afterTurn, answer_eq _ hw]
              exact ih.happenings (hh.handsOn _ _) hw List.suffix_rfl

omit hh hs in
/-- Stores only grow from turn to turn. -/
theorem reaches_afterTurn (host : Host) (s : Session) (turn : Turn) :
    s.store.Reaches (s.afterTurn host turn).store := by
  cases turn with
  | copy index =>
      rw [afterTurn, store_clone]
      exact .rfl
  | ask index a =>
      cases hw : s.world? index with
      | none =>
          rw [afterTurn_ask_of_none a hw]
          exact .rfl
      | some w =>
          rw [afterTurn_ask hw, Ask.world_answer, ← store_of_world? hw]
          exact w.reaches_afterAll _

/-- What is shared exists already when the copy is made. -/
theorem Shared.existsIn {turns : List Turn} {ref : InstanceRef} (h : s.Shared host turns ref) :
    (Value.inst ref).ExistsIn (s.afterTurns host turns).store := by
  induction turns with
  | nil => exact h.elim
  | cons turn earlier ih =>
      have hreach := reaches_afterTurn host (s.afterTurns host earlier) turn
      cases turn with
      | ask index a => exact (ih h).mono hreach
      | copy index =>
          obtain hshared | ⟨w, hw, hreached⟩ := h
          · exact (ih hshared).mono hreach
          · have hexists := hreached.existsIn ((hs.afterTurns hh earlier).world hw)
            rw [store_of_world? hw] at hexists
            exact hexists.mono hreach

omit hh hs

theorem leavesShared_nil : s.LeavesShared host [] := by
  intro earlier index ask hin
  cases List.suffix_nil.mp hin

/-- A copy sets no fields. -/
theorem LeavesShared.copy {earlier : List Turn} (h : s.LeavesShared host earlier) (index : Nat) :
    s.LeavesShared host (.copy index :: earlier) := by
  intro i a part hin
  obtain heq | hin := List.suffix_cons_iff.mp hin
  · cases heq
  · exact h hin

/-- A question leaves shared instances alone if it sets no fields of those shared so far. -/
theorem LeavesShared.ask {earlier : List Turn} (h : s.LeavesShared host earlier) {index : Nat}
    {a : Ask} (hset : ∀ w, (s.afterTurns host earlier).world? index = some w →
      ∀ ref field value, .fieldSet ref field value ∈ a.journal host w →
        ¬ s.Shared host earlier ref) :
    s.LeavesShared host (.ask index a :: earlier) := by
  intro i a' part hin w hw ref field value hmem
  obtain heq | hin := List.suffix_cons_iff.mp hin
  · cases heq
    exact hset w hw ref field value hmem
  · exact h hin hw hmem

/-- Fields may be set of instances made since. -/
theorem LeavesShared.ask_of_new {earlier : List Turn} (h : s.LeavesShared host earlier)
    {index : Nat} {a : Ask} (made : InstanceRef)
    (hshared : ∀ ref, s.Shared host earlier ref → ref.index < made.index)
    (hset : ((s.afterTurns host earlier).world? index).all fun w =>
      (a.journal host w).all fun event => !event.SetsBefore made) :
    s.LeavesShared host (.ask index a :: earlier) := by
  refine h.ask fun w hw ref field value hmem hreached => ?_
  rw [hw, Option.all_some, List.all_eq_true] at hset
  have hnew := hset _ hmem
  simp only [Event.SetsBefore, Bool.not_eq_true', decide_eq_false_iff_not] at hnew
  exact hnew (hshared ref hreached)

end Session

/-- Makes an instance and sets a field of it. -/
def makesAndSets : Program :=
  [.declare .synthetic ⟨.synthetic, "q"⟩
      (.call .synthetic (.variable .synthetic ⟨.synthetic, "A"⟩) .synthetic []),
    .setField .synthetic (.variable .synthetic ⟨.synthetic, "q"⟩) ⟨.synthetic, "f"⟩
      (.variable .synthetic ⟨.synthetic, "p"⟩)]

namespace Session

/-- A context and its copy each make an instance of a shared class and let a field of it refer
to a shared instance.  They answer the same, though they have made different instances. -/
theorem copies_independent_makesAndSets :
    let s := (start .raise false).2
    let asking (program : Program) : Ask := ⟨.run program, 3, fun _ => .beforeEpoch⟩
    let copied := [.copy 0, .ask 0 (asking declaresAndMakes)]
    let turns := .ask 1 (asking makesAndSets) :: .ask 0 (asking makesAndSets) :: copied
    (s.afterTurns failingHost turns).store.instances.size = 3 ∧
      ∃ original copy, s.histories failingHost turns = [original, copy] ∧
        original.asks = [asking makesAndSets, asking declaresAndMakes] ∧
        original.answers = copy.answers := by
  intro s asking copied turns
  have hs : s.AbreastOfItself := abreastOfItself_start .raise false
  have hh : failingHost.Uniform := Host.uniform_ofScripts _ _
  have hsize : (s.afterTurns failingHost copied).store.instances.size = 1 := by decide +kernel
  have hshared (ref : InstanceRef) (h : s.Shared failingHost copied ref) : ref.index < 1 :=
    hsize ▸ h.existsIn hh hs
  have hcopied : s.LeavesShared failingHost copied :=
    (leavesShared_nil.ask fun _ _ _ _ _ _ h => h.elim).copy 0
  have hturns : s.LeavesShared failingHost turns :=
    (hcopied.ask_of_new ⟨1⟩ hshared (by decide +kernel)).ask_of_new ⟨1⟩ hshared
      (by decide +kernel)
  obtain ⟨w₀, hw₀⟩ : ∃ w, (s.afterTurns failingHost []).world? 0 = some w :=
    Option.isSome_iff_exists.mp (by decide +kernel)
  obtain ⟨w₁, hw₁⟩ : ∃ w, (s.afterTurns failingHost copied).world? 0 = some w :=
    Option.isSome_iff_exists.mp (by decide +kernel)
  obtain ⟨w₂, hw₂⟩ : ∃ w, (s.afterTurns failingHost
      (.ask 0 (asking makesAndSets) :: copied)).world? 1 = some w :=
    Option.isSome_iff_exists.mp (by decide +kernel)
  obtain ⟨c, hc⟩ : ∃ c, s.contexts = [c] := contexts_start .raise false
  have hhistories : ∃ original copy, s.histories failingHost turns = [original, copy] ∧
      original.asks = [asking makesAndSets, asking declaresAndMakes] ∧
        original.asks = copy.asks := by
    simp only [turns, histories, hw₂]
    simp only [copied] at hw₁
    simp only [copied, histories, hw₁, hw₀, hc]
    exact ⟨_, _, rfl, rfl, rfl⟩
  refine ⟨by decide +kernel, ?_⟩
  obtain ⟨original, copy, heq, hasks, hsame⟩ := hhistories
  refine ⟨original, copy, heq, hasks, ?_⟩
  exact (copies_independent hh .raise false hturns).2.2 turns hturns original
    (heq ▸ List.mem_cons_self) copy (heq ▸ List.mem_cons_of_mem _ List.mem_cons_self) hsame

end Session

end FieldScript
