import FieldScript.Eval
import FieldScript.Proofs.Progress

/-!
# FieldScript.Proofs.Trace

How runs are put together.

`Trace` says which events can happen from a world on and how a computation with
these events can end.  It keeps what decides about scopes, calls and errors and
leaves values out: what an expression evaluates to, which instruction comes next
and what a function requests.  Every computation of the language has a trace
(`FieldScript.Proofs.Traced`), so what holds of all traces, by induction on them,
holds of every run.

A trace is made for given `Powers` of the functions around: whether they may run
programs, and whether they may go on after an error.
-/

namespace FieldScript

/-! ## endings -/

/-- How a computation ends. -/
inductive Ending where
  /-- With a value. -/
  | done
  | failed (error : RuntimeError)
  | blockExit
  | tooDeep
deriving DecidableEq

namespace Ending

/-- Ends the computation with a value or an error, so that those around it have
their turn? -/
def Settled : Ending → Prop
  | .done | .failed _ => True
  | .blockExit | .tooDeep => False

/-- An ending is settled, a missing scope at the end of a block, or too deep. -/
theorem settled_or {ending : Ending} (h : ending ≠ .tooDeep) :
    ending.Settled ∨ ending = .blockExit := by
  cases ending <;> simp_all [Settled]

end Ending

/-! ## powers -/

/-- What the functions around a program are able to do. -/
structure Powers where
  /-- They may run programs. -/
  runs : Bool
  /-- They may go on after an error. -/
  recovers : Bool

namespace Powers

/-- Functions that may do anything. -/
def all : Powers := ⟨true, true⟩

/-- Functions that pass every error on. -/
def forwarding : Powers := ⟨true, false⟩

/-- Functions that never run programs. -/
def programless : Powers := ⟨false, true⟩

/-- Can anything come after this ending? -/
def GoesOn (p : Powers) : Ending → Prop
  | .done => True
  | .failed _ => p.recovers = true
  | .blockExit | .tooDeep => False

/-- Only after a settled ending does anything go on. -/
theorem GoesOn.settled {p : Powers} {ending : Ending} (h : p.GoesOn ending) :
    ending.Settled := by
  cases ending <;> simp_all [GoesOn, Ending.Settled]

end Powers

/-! ## traces -/

/-- An event of a run that neither begins nor ends anything. -/
def Event.IsEffect : Event → Prop
  | .declared _ _ | .assigned _ _ | .classCreated _ | .instantiated _ _ | .fieldSet _ _ _
  | .fallbackUsed _ _ | .clockRead => True
  | _ => False

/-- The error of reading a field that is absent. -/
def Context.missingField (c : Context) (cls : ClassInfo) (field : Name) : RuntimeError :=
  c.error (.source field.range) (.undefinedField cls.name field.text) (missingFieldInfos cls)

/-- The event with which something is over in a context, given how it went. -/
inductive Closes (c : Context) : Activity → Ending → Event → Prop where
  | left {ending : Ending} (hs : ending.Settled) (hb : c.blocks ≠ []) :
      Closes c .block ending .blockLeft
  | returned {ending : Ending} (entry : CallEntry) (hs : ending.Settled) :
      Closes c (.call entry) ending .callLeft
  | completed : Closes c .program .done .programCompleted
  | aborted (e : RuntimeError) : Closes c .program (.failed e) (.programAborted e)

/-- What closes an activity is the end of one. -/
theorem Closes.ends {c : Context} {activity : Activity} {ending : Ending} {closing : Event}
    (h : Closes c activity ending closing) : closing.ends = true := by
  cases h <;> rfl

/-- Only what is settled is closed. -/
theorem Closes.settled {c : Context} {activity : Activity} {ending : Ending} {closing : Event}
    (h : Closes c activity ending closing) : ending.Settled := by
  cases h with
  | left hs _ => exact hs
  | returned _ hs => exact hs
  | completed => trivial
  | aborted e => trivial

/-- The events, latest first, that can happen from a world on, and how a computation
with these events can end. -/
inductive Trace (p : Powers) : World → List Event → Ending → Prop where
  /-- Nothing happens. -/
  | silent (w : World) {ending : Ending} (h : ending ≠ .blockExit) : Trace p w [] ending
  | effect (w : World) {event : Event} (h : event.IsEffect) : Trace p w [event] .done
  /-- A field is read that is absent. -/
  | missed {w : World} {ref : InstanceRef} {cls : ClassInfo} {field : Name}
      (hc : w.store.classOf ref = cls) (hf : w.store.field? ref field.text = none) :
      Trace p w [.fieldMissed ref cls field] (.failed (w.context.missingField cls field))
  /-- One thing after the other, the first of which has failed if the functions
  around can go on then. -/
  | andThen {w : World} {first second : List Event} {middle ending : Ending}
      (hgo : p.GoesOn middle) (hf : Trace p w first middle)
      (hs : Trace p (w.afterAll first) second ending) : Trace p w (second ++ first) ending
  /-- Something begins and is over. -/
  | bracket {w : World} {opening closing : Event} {activity : Activity} {body : List Event}
      {ending : Ending} (ho : opening.begins? = some activity)
      (hp : activity = .program → p.runs = true) (hb : Trace p (w.after opening) body ending)
      (hc : Closes ((w.after opening).afterAll body).context activity ending closing) :
      Trace p w (closing :: (body ++ [opening])) ending
  /-- A block is to be left whose scope is gone. -/
  | gone {w : World} {body : List Event} {ending : Ending} (hs : ending.Settled)
      (hb : Trace p (w.after .blockEntered) body ending)
      (hc : ((w.after .blockEntered).afterAll body).context.blocks = []) :
      Trace p w (body ++ [.blockEntered]) .blockExit
  /-- Something begins and what happens within it never settles. -/
  | unsettled {w : World} {opening : Event} {activity : Activity} {body : List Event}
      {ending : Ending} (ho : opening.begins? = some activity)
      (hp : activity = .program → p.runs = true) (hs : ¬ ending.Settled)
      (hb : Trace p (w.after opening) body ending) : Trace p w (body ++ [opening]) ending

/-! ## what every trace keeps -/

namespace Event.IsEffect

variable {event : Event}

/-- An effect begins nothing. -/
theorem begins? (h : event.IsEffect) : event.begins? = none := by
  cases event <;> simp_all [IsEffect, Event.begins?]

/-- An effect ends nothing. -/
theorem ends (h : event.IsEffect) : event.ends = false := by
  cases event <;> simp_all [IsEffect, Event.ends]

theorem ne_aborted (h : event.IsEffect) (e : RuntimeError) : event ≠ .programAborted e := by
  intro heq
  subst heq
  exact h

end Event.IsEffect

/-- The world after a bracket of events is the world after its opening, its body and its closing. -/
theorem World.afterAll_bracket (w : World) (opening closing : Event) (body : List Event) :
    w.afterAll (closing :: (body ++ [opening])) =
      ((w.after opening).afterAll body).after closing := by
  simp [World.afterAll_append]

namespace Trace

variable {p : Powers} {w : World} {events : List Event} {ending : Ending}

/-- Nothing is over that was in progress before, and on settling nothing is left in
progress. -/
theorem nests (h : Trace p w events ending) :
    Nests events ∧ (ending.Settled → inProgress events = []) := by
  induction h with
  | silent w h => exact ⟨nests_nil, fun _ => rfl⟩
  | effect w h =>
      exact ⟨nests_plain h.begins? h.ends, fun _ => inProgress_cons_plain h.begins? h.ends []⟩
  | missed hc hf => exact ⟨nests_plain rfl rfl, fun _ => rfl⟩
  | andThen hgo hf hs ihf ihs =>
      refine ⟨ihs.1.append ihf.1, fun hset => ?_⟩
      rw [ihs.1.whole, ihs.2 hset, ihf.2 hgo.settled, List.append_nil]
  | bracket ho hp hb hc ih =>
      have hover := ih.2 hc.settled
      exact ⟨ih.1.closed ho hc.ends hover, fun _ => inProgress_closed ho hc.ends ih.1 hover⟩
  | gone hs hb hc ih => exact ⟨ih.1.opened rfl, fun h => absurd h id⟩
  | unsettled ho hp hs hb ih => exact ⟨ih.1.opened ho, fun h => absurd h hs⟩

/-- No event of a trace creates a function. -/
theorem functions (h : Trace p w events ending) :
    (w.afterAll events).store.functions = w.store.functions := by
  induction h with
  | silent w h => rfl
  | @effect w event h =>
      cases event <;> first | exact h.elim | rfl | skip
      simp only [World.afterAll_cons, World.afterAll_nil, World.after]
      split <;> rfl
  | missed hc hf => rfl
  | andThen hgo hf hs ihf ihs => rw [World.afterAll_append, ihs, ihf]
  | @bracket w opening closing activity body ending ho hp hb hc ih =>
      have hopen : (w.after opening).store = w.store := by cases opening <;> cases ho <;> rfl
      rw [World.afterAll_bracket, ← hopen, ← ih]
      cases hc <;> rfl
  | gone hs hb hc ih => rw [World.afterAll_append]; exact ih
  | @unsettled w opening activity body ending ho hp hs hb ih =>
      have hopen : (w.after opening).store = w.store := by cases opening <;> cases ho <;> rfl
      rw [World.afterAll_append, ← hopen]
      exact ih

end Trace

end FieldScript
