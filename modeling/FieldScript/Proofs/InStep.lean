import FieldScript.Proofs.Likeness
import FieldScript.Proofs.Traced

/-!
# FieldScript.Proofs.InStep

Computations that go in step.

Two computations are in step (`InStep`) if from alike worlds they bring about alike
events and end alike: both answer, with related values, or both stop for alike reasons.
Only runs within the extent of the likeness are compared, so that, for instance, one
computation may be cut off where the other is allowed deeper calls.

Each way to put computations together keeps this: one after the other (`InStep.bind`),
going on with an outcome (`InStep.settle_bind`), and running within a block or a call
(`inStep_inBlock`, `inStep_inCall`).
-/

namespace FieldScript

/-! ## extents -/

namespace Extent

variable {extent : Extent}

/-- Successes are compared whatever the extent. -/
theorem covers_done : extent.Covers .done := by
  cases extent <;> trivial

theorem covers_all (ending : Ending) : Extent.all.Covers ending := by
  cases ending <;> trivial

/-- All ends are compared but those of calls that are too deep. -/
theorem covers_ends {ending : Ending} (h : ending ≠ .tooDeep) : Extent.ends.Covers ending := by
  cases ending <;> trivial

/-- Errors are compared unless only answers are. -/
theorem covers_failed (h : extent ≠ .answers) (e : RuntimeError) : extent.Covers (.failed e) := by
  cases extent with
  | answers => exact absurd rfl h
  | ends => exact nofun
  | all => trivial

theorem not_covers_tooDeep (h : extent ≠ .all) : ¬ extent.Covers .tooDeep := by
  cases extent with
  | answers => exact id
  | ends => exact fun hc => hc rfl
  | all => exact absurd rfl h

/-- Where only answers are compared, what is compared is a success. -/
theorem eq_done_of_covers {ending : Ending} (h : Extent.answers.Covers ending) :
    ending = .done := by
  cases ending <;> first | rfl | exact h.elim

end Extent

/-! ## being in step -/

section Definitions

variable {α β : Type} (L : Likeness)

/-- Two machines have come from two others through alike events, to alike worlds. -/
structure Proceed (m m' n n' : Machine) : Prop where
  world : n.world.Alike L n'.world
  events : ∃ added added', n.journal = added ++ m.journal ∧ n'.journal = added' ++ m'.journal ∧
    List.Forall₂ (Event.Alike L) added added'

/-- Two results of computations that start on two machines are alike. -/
inductive Meet (R : α → β → Prop) (m m' : Machine) :
    EStateM.Result Stop Machine α → EStateM.Result Stop Machine β → Prop where
  | answered {a : α} {b : β} {n n' : Machine} (h : R a b) (hn : Proceed L m m' n n') :
      Meet R m m' (.ok a n) (.ok b n')
  | stopped {stop stop' : Stop} {n n' : Machine} (h : stop.Alike L stop')
      (hn : Proceed L m m' n n') : Meet R m m' (.error stop n) (.error stop' n')

/-- From alike worlds, two computations go alike. -/
def InStep (R : α → β → Prop) (x : Exec α) (y : Exec β) : Prop :=
  ∀ ⦃m m' : Machine⦄, m.world.Alike L m'.world → L.extent.Covers (x.ending m) →
    Meet L R m m' (x m) (y m')

/-- Both succeed, with related answers, or both fail with alike errors. -/
inductive OutcomesAlike (R : α → β → Prop) :
    Except RuntimeError α → Except RuntimeError β → Prop where
  | ok {a : α} {b : β} (h : R a b) : OutcomesAlike R (.ok a) (.ok b)
  | error {e e' : RuntimeError} (h : e.Alike L e') : OutcomesAlike R (.error e) (.error e')

end Definitions

section Exact

variable {L : Likeness} (hL : L.Exact) (hcalls : L.calls = true)

include hL hcalls

/-- Outcomes that are alike in an exact likeness are the same. -/
theorem OutcomesAlike.eq {α : Type} {R : α → α → Prop} (hR : ∀ {a a'}, R a a' → a = a')
    {o o' : Except RuntimeError α} (h : OutcomesAlike L R o o') : o = o' := by
  cases h with
  | ok hab => rw [hR hab]
  | error he => rw [he.eq hL.range hcalls]

end Exact

section Combinators

variable {α β γ δ : Type} {L : Likeness} {R : α → β → Prop} {S : γ → δ → Prop}

theorem Proceed.refl {m m' : Machine} (h : m.world.Alike L m'.world) : Proceed L m m' m m' where
  world := h
  events := ⟨[], [], rfl, rfl, .nil⟩

/-- What happens first and what happens then are alike together. -/
theorem Proceed.trans {m m' n n' p p' : Machine} (h : Proceed L m m' n n')
    (h' : Proceed L n n' p p') : Proceed L m m' p p' := by
  obtain ⟨first, first', hfirst, hfirst', halike⟩ := h.events
  obtain ⟨second, second', hsecond, hsecond', halike'⟩ := h'.events
  refine ⟨h'.world, second ++ first, second' ++ first', ?_, ?_, List.rel_append halike' halike⟩
  · rw [hsecond, hfirst, List.append_assoc]
  · rw [hsecond', hfirst', List.append_assoc]

/-- Alike events take alike worlds to alike worlds. -/
theorem Proceed.after {m m' : Machine} (h : m.world.Alike L m'.world) {event event' : Event}
    (he : event.Alike L event') : Proceed L m m' (m.after event) (m'.after event') where
  world := h.after he
  events := ⟨[event], [event'], rfl, rfl, .cons he .nil⟩

/-- Results are compared with the machines where both computations began. -/
theorem Meet.of_proceed {m m' n n' : Machine} (h : Proceed L m m' n n')
    {r : EStateM.Result Stop Machine α} {r' : EStateM.Result Stop Machine β}
    (hr : Meet L R n n' r r') : Meet L R m m' r r' := by
  cases hr with
  | answered hab hn => exact .answered hab (h.trans hn)
  | stopped hs hn => exact .stopped hs (h.trans hn)

/-- A relation between answers can be weakened. -/
theorem Meet.mono {R' : α → β → Prop} (himp : ∀ {a b}, R a b → R' a b) {m m' : Machine}
    {r : EStateM.Result Stop Machine α} {r' : EStateM.Result Stop Machine β}
    (hr : Meet L R m m' r r') : Meet L R' m m' r r' := by
  cases hr with
  | answered hab hn => exact .answered (himp hab) hn
  | stopped hs hn => exact .stopped hs hn

/-! ## single computations -/

/-- Related values are related answers. -/
theorem inStep_pure {a : α} {b : β} (h : R a b) : InStep L R (pure a) (pure b) := by
  intro m m' hw _
  exact .answered h (.refl hw)

/-- Alike stops are alike results. -/
theorem inStep_throw {stop stop' : Stop} (h : stop.Alike L stop') :
    InStep L R (throw stop) (throw stop') := by
  intro m m' hw _
  exact .stopped h (.refl hw)

/-- The same failure at alike places is an alike error, since alike contexts add alike calls. -/
theorem inStep_fail {l l' : Location} (hl : l.Alike L l') (cause : Cause) (infos : List Info) :
    InStep L R (Exec.fail l cause infos) (Exec.fail l' cause infos) := by
  intro m m' hw _
  exact .stopped (.error (hw.context.error hl cause (.inl rfl))) (.refl hw)

/-- Alike events leave both sides in step. -/
theorem inStep_emit {event event' : Event} (h : event.Alike L event') :
    InStep L Eq (Exec.emit event) (Exec.emit event') := by
  intro m m' hw _
  exact .answered rfl (.after hw h)

/-- Alike stores name the next class alike. -/
theorem inStep_nextClass : InStep L Eq Exec.nextClass Exec.nextClass := by
  intro m m' hw _
  exact .answered hw.store.nextClass_eq (.refl hw)

/-- Alike stores name the next instance alike. -/
theorem inStep_nextInstance : InStep L Eq Exec.nextInstance Exec.nextInstance := by
  intro m m' hw _
  exact .answered hw.store.nextInstance_eq (.refl hw)

/-- A computation that cannot be in the extent is in step with any. -/
theorem inStep_of_uncovered {x : Exec α} {y : Exec β}
    (h : ∀ m, ¬ L.extent.Covers (x.ending m)) : InStep L R x y := by
  intro m m' _ hc
  exact absurd hc (h m)

/-! ## one after the other -/

/-- Computations in step stay so for a weaker relation between answers. -/
theorem InStep.mono {R' : α → β → Prop} {x : Exec α} {y : Exec β} (hx : InStep L R x y)
    (himp : ∀ {a b}, R a b → R' a b) : InStep L R' x y := by
  intro m m' hw hc
  exact (hx hw hc).mono himp

/-- Computations in step can be followed by computations that are in step for related answers. -/
theorem InStep.bind {x : Exec α} {y : Exec β} {f : α → Exec γ} {g : β → Exec δ}
    (hx : InStep L R x y) (hf : ∀ a b, R a b → InStep L S (f a) (g b)) :
    InStep L S (x >>= f) (y >>= g) := by
  intro m m' hw hc
  have hcovered : L.extent.Covers (x.ending m) := by
    cases hrun : x m with
    | ok a n => exact Exec.ending_of_ok hrun ▸ Extent.covers_done
    | error stop n =>
        have hstop : (x >>= f) m = .error stop n := by rw [Exec.bind_run, hrun]
        rw [Exec.ending_of_error hstop] at hc
        exact Exec.ending_of_error hrun ▸ hc
  have hmeet := hx hw hcovered
  rw [Exec.bind_run, Exec.bind_run]
  rw [Exec.ending, Exec.bind_run] at hc
  generalize x m = r at hmeet hc
  generalize y m' = r' at hmeet
  cases hmeet with
  | answered hab hn => exact (hf _ _ hab hn.world hc).of_proceed hn
  | stopped hs hn => exact .stopped hs hn

/-- To go on from the context, it is enough to be in step for alike contexts. -/
theorem inStep_context_bind {f : Context → Exec α} {g : Context → Exec β}
    (hf : ∀ c c', c.Alike L c' → InStep L R (f c) (g c')) :
    InStep L R (Exec.context >>= f) (Exec.context >>= g) := by
  intro m m' hw hc
  exact hf _ _ hw.context hw hc

/-- To go on from the store, it is enough to be in step for alike stores. -/
theorem inStep_store_bind {f : Store → Exec α} {g : Store → Exec β}
    (hf : ∀ s s', s.Alike L s' → InStep L R (f s) (g s')) :
    InStep L R (Exec.store >>= f) (Exec.store >>= g) := by
  intro m m' hw hc
  exact hf _ _ hw.store hw hc

/-- To go on from the machine, it is enough to be in step for machines with alike worlds. -/
theorem inStep_get_bind {f : Machine → Exec α} {g : Machine → Exec β}
    (hf : ∀ m m', m.world.Alike L m'.world → InStep L R (f m) (g m')) :
    InStep L R (get >>= f) (get >>= g) := by
  intro m m' hw hc
  exact hf m m' hw hw hc

/-! ## going on with an outcome -/

/-- Going on with alike outcomes leads to related answers or alike errors. -/
theorem inStep_resume {o : Except RuntimeError α} {o' : Except RuntimeError β}
    (h : OutcomesAlike L R o o') : InStep L R (Exec.resume o) (Exec.resume o') := by
  cases h with
  | ok hab => exact inStep_pure hab
  | error he => exact inStep_throw (.error he)

/-- If only answers are compared, what follows an error must not be one. -/
theorem InStep.settle_bind {x : Exec α} {y : Exec β} {f : Except RuntimeError α → Exec γ}
    {g : Except RuntimeError β → Exec δ} (hx : InStep L R x y)
    (hf : ∀ o o', OutcomesAlike L R o o' → InStep L S (f o) (g o'))
    (he : L.extent ≠ .answers ∨ ∀ e m, (f (.error e)).ending m ≠ .done) :
    InStep L S (Exec.settle x >>= f) (Exec.settle y >>= g) := by
  intro m m' hw hc
  rw [Exec.ending, Exec.bind_run, Exec.settle_run] at hc
  have hcovered : L.extent.Covers (x.ending m) := by
    rw [Exec.ending]
    generalize x m = r at hc
    cases r with
    | ok a n => exact Extent.covers_done
    | error stop n =>
        cases stop with
        | blockExit | tooDeep => exact hc
        | error e =>
            refine Extent.covers_failed (fun hanswers => ?_) e
            rw [hanswers] at hc
            exact (he.resolve_left (absurd hanswers)) e n (Extent.eq_done_of_covers hc)
  have hmeet := hx hw hcovered
  rw [Exec.bind_run, Exec.bind_run, Exec.settle_run, Exec.settle_run]
  generalize x m = r at hmeet hc
  generalize y m' = r' at hmeet
  cases hmeet with
  | answered hab hn => exact (hf _ _ (.ok hab) hn.world hc).of_proceed hn
  | stopped hs hn =>
      cases hs with
      | error he => exact (hf _ _ (.error he) hn.world hc).of_proceed hn
      | blockExit => exact .stopped .blockExit hn
      | tooDeep => exact .stopped .tooDeep hn

/-! ## blocks and calls -/

variable {x : Exec α} {y : Exec β}

/-- Alike contexts are in as many blocks as each other, so both leave one or neither can. -/
theorem inStep_leaveBlock : InStep L Eq Exec.leaveBlock Exec.leaveBlock := by
  refine inStep_context_bind fun c c' hc => ?_
  have hblocks := hc.frames.blocks
  generalize c.blocks = blocks at hblocks
  generalize c'.blocks = blocks' at hblocks
  cases hblocks with
  | nil => exact inStep_throw .blockExit
  | cons => exact inStep_emit .blockLeft

/-- Going on with an error never succeeds, whatever is done before. -/
theorem ending_bind_resume_error_ne_done (first : Exec Unit) (e : RuntimeError) (m : Machine) :
    (do first; Exec.resume (.error e) : Exec α).ending m ≠ .done := by
  rw [Exec.ending, Exec.bind_run]
  cases first m with
  | ok a n => exact Ending.noConfusion
  | error stop n => cases stop <;> exact Ending.noConfusion

/-- Blocks around computations in step are in step. -/
theorem inStep_inBlock (hx : InStep L R x y) : InStep L R (Exec.inBlock x) (Exec.inBlock y) := by
  refine (inStep_emit .blockEntered).bind fun _ _ _ => ?_
  have hstops := ending_bind_resume_error_ne_done (α := α) Exec.leaveBlock
  refine hx.settle_bind (fun outcome outcome' ho => ?_) (.inr hstops)
  exact inStep_leaveBlock.bind fun _ _ _ => inStep_resume ho

/-- Calls around computations in step are in step, if the entries are alike. -/
theorem inStep_inCall {entry entry' : CallEntry} (he : entry.Alike L entry') (args : Nat)
    (hx : InStep L R x y) :
    InStep L R (Exec.inCall entry args x) (Exec.inCall entry' args y) := by
  refine (inStep_emit (.callEntered he args)).bind fun _ _ _ => ?_
  have hstops := ending_bind_resume_error_ne_done (α := α) (Exec.emit .callLeft)
  refine hx.settle_bind (fun outcome outcome' ho => ?_) (.inr hstops)
  exact (inStep_emit .callLeft).bind fun _ _ _ => inStep_resume ho

end Combinators

/-! ## results -/

/-- What a computation comes to in a world, and the world in which it ends. -/
def Exec.result {α : Type} (x : Exec α) (w : World) : Except Stop α × World :=
  match x ⟨w, []⟩ with
  | .ok a m => (.ok a, m.world)
  | .error stop m => (.error stop, m.world)

/-- How a computation ends can be read off its result. -/
theorem Exec.ending_of_result {α : Type} {x : Exec α} {w : World} :
    x.ending ⟨w, []⟩ =
      match (x.result w).1 with
      | .ok _ => .done
      | .error stop => stop.ending := by
  rw [ending, result]
  cases x ⟨w, []⟩ <;> rfl

/-- The world that a computation ends in is that of its result. -/
theorem Exec.world_final {α : Type} (x : Exec α) (w : World) :
    (x.final ⟨w, []⟩).world = (x.result w).2 := by
  rw [final, result]
  cases x ⟨w, []⟩ <;> rfl

/-- Both computations answer, with related values, or stop for alike reasons. -/
inductive ResultsAlike (L : Likeness) {α β : Type} (R : α → β → Prop) :
    Except Stop α → Except Stop β → Prop where
  | ok {a : α} {b : β} (h : R a b) : ResultsAlike L R (.ok a) (.ok b)
  | error {stop stop' : Stop} (h : stop.Alike L stop') :
      ResultsAlike L R (.error stop) (.error stop')

section Results

variable {α β : Type} {L : Likeness} {R : α → β → Prop} {x : Exec α} {y : Exec β}

/-- Results that are alike in an exact likeness are the same. -/
theorem ResultsAlike.eq {R : α → α → Prop} (hL : L.Exact) (hcalls : L.calls = true)
    (hR : ∀ {a a'}, R a a' → a = a') {o o' : Except Stop α} (h : ResultsAlike L R o o') :
    o = o' := by
  cases h with
  | ok hab => rw [hR hab]
  | error hs => rw [hs.eq hL.range hcalls]

/-- Computations in step have alike results in alike worlds, and alike journals. -/
theorem InStep.result (h : InStep L R x y) {w w' : World} (hw : w.Alike L w')
    (hc : L.extent.Covers (x.ending ⟨w, []⟩)) :
    ResultsAlike L R (x.result w).1 (y.result w').1 ∧
      (x.result w).2.Alike L (y.result w').2 ∧
      List.Forall₂ (Event.Alike L) (x.journal w) (y.journal w') := by
  have hmeet : Meet L R ⟨w, []⟩ ⟨w', []⟩ (x ⟨w, []⟩) (y ⟨w', []⟩) := h hw hc
  rw [Exec.result, Exec.result, Exec.journal, Exec.journal, Exec.final, Exec.final]
  generalize x ⟨w, []⟩ = r at hmeet
  generalize y ⟨w', []⟩ = r' at hmeet
  have hevents {n n' : Machine} (hn : Proceed L ⟨w, []⟩ ⟨w', []⟩ n n') :
      List.Forall₂ (Event.Alike L) n.journal n'.journal := by
    obtain ⟨added, added', hadded, hadded', halike⟩ := hn.events
    rw [hadded, hadded', List.append_nil, List.append_nil]
    exact halike
  cases hmeet with
  | answered hab hn => exact ⟨.ok hab, hn.world, hevents hn⟩
  | stopped hs hn => exact ⟨.error hs, hn.world, hevents hn⟩

end Results

end FieldScript
