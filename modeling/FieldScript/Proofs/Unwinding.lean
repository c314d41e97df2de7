import FieldScript.Proofs.BlockExit

/-!
# FieldScript.Proofs.Unwinding

What follows an error where functions pass errors on.

An error that arises at the read of an absent field, or that a program ends with, is
on its way out: blocks and calls are left, programs are aborted with the same error,
and nothing else happens.  `Unwinding` is a trace seen from such a moment, and
`Trace.unwinding` finds it in the trace.  Only one thing can stop an error on its
way, and that is the exit of a block:

* after a program has failed, if a block is being executed around it;
* after an absent field was read, if a program is running within a block.
-/

namespace FieldScript

/-! ## errors on their way -/

/-- The error that an event stops what it is part of with. -/
def Event.error? (w : World) : Event → Option RuntimeError
  | .fieldMissed _ cls field => some (w.context.missingField cls field)
  | .programAborted e => some e
  | _ => none

/-- The event is part of the way out of an error. -/
def Event.Unwinds (e : RuntimeError) : Event → Prop
  | .blockLeft | .callLeft => True
  | .programAborted e' => e' = e
  | _ => False

theorem Event.IsEffect.error? {event : Event} (h : event.IsEffect) (w : World) :
    event.error? w = none := by
  cases event <;> first | rfl | exact h.elim

theorem error?_of_begins {event : Event} {activity : Activity}
    (h : event.begins? = some activity) (w : World) : event.error? w = none := by
  cases event <;> first | rfl | cases h

theorem Closes.unwinds {c : Context} {activity : Activity} {e : RuntimeError} {closing : Event}
    (h : Closes c activity (.failed e) closing) : closing.Unwinds e := by
  cases h <;> trivial

/-- A trace around the moment at which an error arises: the events before, the event
that comes with the error, and the events after. -/
inductive Unwinding (p : Powers) (e : RuntimeError) :
    World → List Event → Event → List Event → Ending → Prop where
  /-- The error of reading an absent field. -/
  | missed {w : World} {ref : InstanceRef} {cls : ClassInfo} {field : Name}
      (hc : w.store.classOf ref = cls) (hf : w.store.field? ref field.text = none)
      (he : w.context.missingField cls field = e) :
      Unwinding p e w [] (.fieldMissed ref cls field) [] (.failed e)
  /-- The error of a program. -/
  | aborted {w : World} {opening : Event} {body : List Event}
      (ho : opening.begins? = some .program) (hb : Trace p (w.after opening) body (.failed e)) :
      Unwinding p e w (body ++ [opening]) (.programAborted e) [] (.failed e)
  | after {w : World} {first part later : List Event} {event : Event} {ending : Ending}
      (hf : Trace p w first .done)
      (hs : Trace p (w.afterAll first) (later ++ event :: part) ending)
      (h : Unwinding p e (w.afterAll first) part event later ending) :
      Unwinding p e w (part ++ first) event later ending
  /-- The error leaves what has begun before. -/
  | leaves {w : World} {opening event closing : Event} {activity : Activity}
      {part later : List Event} (ho : opening.begins? = some activity)
      (hb : Trace p (w.after opening) (later ++ event :: part) (.failed e))
      (hc : Closes ((w.after opening).afterAll (later ++ event :: part)).context activity
        (.failed e) closing)
      (h : Unwinding p e (w.after opening) part event later (.failed e)) :
      Unwinding p e w (part ++ [opening]) event (closing :: later) (.failed e)
  /-- The error cannot leave a block, whose scope is gone. -/
  | gone {w : World} {event : Event} {part later : List Event}
      (hb : Trace p (w.after .blockEntered) (later ++ event :: part) (.failed e))
      (hc : ((w.after .blockEntered).afterAll (later ++ event :: part)).context.blocks = [])
      (h : Unwinding p e (w.after .blockEntered) part event later (.failed e)) :
      Unwinding p e w (part ++ [.blockEntered]) event later .blockExit
  /-- A block further in could not be left. -/
  | stopped {w : World} {opening event : Event} {activity : Activity} {part later : List Event}
      (ho : opening.begins? = some activity)
      (hb : Trace p (w.after opening) (later ++ event :: part) .blockExit)
      (h : Unwinding p e (w.after opening) part event later .blockExit) :
      Unwinding p e w (part ++ [opening]) event later .blockExit

namespace Unwinding

variable {p : Powers} {e : RuntimeError} {w : World} {earlier later : List Event} {event : Event}
  {ending : Ending}

/-- The error comes out in the end unless a block cannot be left. -/
theorem ending_eq (h : Unwinding p e w earlier event later ending) :
    ending = .failed e ∨ ending = .blockExit := by
  induction h with
  | missed | aborted | leaves => exact .inl rfl
  | gone | stopped => exact .inr rfl
  | after _ _ _ ih => exact ih

theorem unwinds (h : Unwinding p e w earlier event later ending) :
    ∀ event' ∈ later, event'.Unwinds e := by
  induction h with
  | missed | aborted => exact fun _ hm => absurd hm List.not_mem_nil
  | after _ _ _ ih | gone _ _ _ ih | stopped _ _ _ ih => exact ih
  | leaves _ _ hc _ ih =>
      intro event' hm
      obtain rfl | hm := List.mem_cons.mp hm
      · exact hc.unwinds
      · exact ih event' hm

end Unwinding

/-! ## finding them -/

theorem singleton_eq_append_cons {α : Type} {a b : α} {later earlier : List α}
    (h : [a] = later ++ b :: earlier) : later = [] ∧ b = a ∧ earlier = [] := by
  obtain ⟨rfl, h⟩ | ⟨rest, rfl, h⟩ := List.cons_eq_append_iff.mp h
  · obtain ⟨rfl, rfl⟩ := List.cons.inj h
    exact ⟨rfl, rfl, rfl⟩
  · simp at h

/-- An error arises within what an event begins, not with that event. -/
theorem opened_eq_append_cons {opening event : Event} {activity : Activity} {w : World}
    {e : RuntimeError} {body later earlier : List Event} (ho : opening.begins? = some activity)
    (he : event.error? w = some e) (h : body ++ [opening] = later ++ event :: earlier) :
    ∃ part, body = later ++ event :: part ∧ earlier = part ++ [opening] := by
  obtain ⟨rest, _, hfirst⟩ | hbody := append_eq_append_cons h
  · obtain ⟨_, rfl, _⟩ := singleton_eq_append_cons hfirst
    rw [error?_of_begins ho] at he
    cases he
  · exact hbody

theorem Closes.error?_eq {c : Context} {activity : Activity} {ending : Ending} {closing : Event}
    {e : RuntimeError} {w : World} (hc : Closes c activity ending closing)
    (he : closing.error? w = some e) :
    activity = .program ∧ ending = .failed e ∧ closing = .programAborted e := by
  cases hc with
  | left | returned | completed => cases he
  | aborted e' =>
      cases he
      exact ⟨rfl, rfl, rfl⟩

/-- Where functions pass errors on, every error of a trace is on its way out. -/
theorem Trace.unwinding {p : Powers} {w : World} {events : List Event} {ending : Ending}
    (ht : Trace p w events ending) (hp : p.recovers = false) {later earlier : List Event}
    {event : Event} {e : RuntimeError} (heq : events = later ++ event :: earlier)
    (he : event.error? (w.afterAll earlier) = some e) :
    Unwinding p e w earlier event later ending := by
  induction ht generalizing later earlier with
  | silent w h => simp at heq
  | effect w h =>
      obtain ⟨_, rfl, _⟩ := singleton_eq_append_cons heq
      rw [h.error?] at he
      cases he
  | missed hc hf =>
      obtain ⟨rfl, rfl, rfl⟩ := singleton_eq_append_cons heq
      cases he
      exact .missed hc hf rfl
  | @andThen w first second middle ending hgo hf hs ihf ihs =>
      obtain ⟨rest, rfl, hfirst⟩ | ⟨part, rfl, rfl⟩ := append_eq_append_cons heq
      · -- nothing can follow the first, since it has ended with the error
        obtain rfl | rfl := (ihf hfirst he).ending_eq
        · rw [Powers.GoesOn, hp] at hgo
          cases hgo
        · exact hgo.elim
      · rw [World.afterAll_append] at he
        obtain rfl : middle = .done := by
          cases middle with
          | done => rfl
          | failed e => simp [Powers.GoesOn, hp] at hgo
          | blockExit | tooDeep => exact hgo.elim
        exact .after hf hs (ihs rfl he)
  | bracket ho hruns hb hc ih =>
      obtain ⟨rfl, hfirst⟩ | ⟨later, rfl, hrest⟩ := List.cons_eq_append_iff.mp heq
      · obtain ⟨rfl, rfl⟩ := List.cons.inj hfirst
        obtain ⟨rfl, rfl, rfl⟩ := hc.error?_eq he
        exact .aborted ho hb
      · obtain ⟨part, rfl, rfl⟩ := opened_eq_append_cons ho he hrest
        rw [World.afterAll_append] at he
        have hin := ih rfl he
        obtain rfl | rfl := hin.ending_eq
        · exact .leaves ho hb hc hin
        · exact hc.settled.elim
  | gone hs hb hc ih =>
      obtain ⟨part, rfl, rfl⟩ := opened_eq_append_cons rfl he heq
      rw [World.afterAll_append] at he
      have hin := ih rfl he
      obtain rfl | rfl := hin.ending_eq
      · exact .gone hb hc hin
      · exact hs.elim
  | unsettled ho hruns hs hb ih =>
      obtain ⟨part, rfl, rfl⟩ := opened_eq_append_cons ho he heq
      rw [World.afterAll_append] at he
      have hin := ih rfl he
      obtain rfl | rfl := hin.ending_eq
      · exact absurd trivial hs
      · exact .stopped ho hb hin

/-! ## what stops an error -/

section

variable {p : Powers} {w : World} {ending : Ending}

/-- Where functions pass errors on, no program fails in a computation that is done. -/
theorem Trace.not_aborts_of_done {events : List Event} (h : Trace p w events .done)
    (hp : p.recovers = false) : ¬ Aborts events := by
  intro ha
  obtain ⟨e, hmem⟩ := ha
  obtain ⟨later, earlier, heq⟩ := List.append_of_mem hmem
  have hin : Unwinding p e w earlier (.programAborted e) later .done := h.unwinding hp heq rfl
  obtain hend | hend := hin.ending_eq
  · cases hend
  · cases hend

/-- What is in progress at a moment of a trace that comes after other events. -/
theorem Trace.inProgress_append {later part : List Event} {event : Event}
    (h : Trace p w (later ++ event :: part) ending) (before : List Event) :
    inProgress (part ++ before) = inProgress part ++ inProgress before := by
  have hsuffix : part <:+ later ++ event :: part :=
    (List.suffix_cons event part).trans (List.suffix_append later _)
  exact h.nests.1 part hsuffix before

theorem Trace.inProgress_opened {later part : List Event} {opening event : Event}
    {activity : Activity} (ho : opening.begins? = some activity)
    (h : Trace p w (later ++ event :: part) ending) :
    inProgress (part ++ [opening]) = inProgress part ++ [activity] := by
  rw [h.inProgress_append, inProgress_cons_begins ho, inProgress_nil]

/-- After a program has failed, the error is stopped exactly if a block is being
executed around it. -/
theorem Unwinding.blockExit_iff_of_aborted {e : RuntimeError} {earlier later : List Event}
    (h : Unwinding p e w earlier (.programAborted e) later ending) :
    ending = .blockExit ↔ .block ∈ inProgress earlier := by
  generalize hevent : Event.programAborted e = event at h
  induction h with
  | missed => cases hevent
  | aborted ho hb =>
      rw [FieldScript.inProgress_opened ho hb.nests.1, hb.nests.2 trivial]
      simp
  | after hf hs _ ih =>
      rw [hs.inProgress_append, hf.nests.2 trivial, List.append_nil]
      exact ih hevent
  | @leaves w opening event closing activity part later ho hb hc _ ih =>
      rw [hb.inProgress_opened ho, List.mem_append, List.mem_singleton]
      constructor
      · nofun
      · intro hin
        obtain hin | rfl := hin
        · cases (ih hevent).mpr hin
        · cases hc with
          | left hs hne =>
              cases opening <;> cases ho
              refine absurd ⟨e, ?_⟩ ((hb.alive.1 hs).left hne).1
              rw [hevent]
              exact List.mem_append_right _ List.mem_cons_self
  | gone hb hc _ ih =>
      rw [hb.inProgress_opened rfl]
      simp
  | stopped ho hb _ ih =>
      rw [hb.inProgress_opened ho, List.mem_append]
      exact ⟨fun _ => .inl ((ih hevent).mp rfl), fun _ => rfl⟩

/-- After an absent field was read, a program has failed by the time something
settles exactly if the program was running at that moment. -/
theorem Unwinding.aborts_iff_of_missed {e : RuntimeError} {earlier later : List Event}
    {ref : InstanceRef} {cls : ClassInfo} {field : Name} (hp : p.recovers = false)
    (h : Unwinding p e w earlier (.fieldMissed ref cls field) later ending)
    (hs : ending.Settled) :
    Aborts (later ++ .fieldMissed ref cls field :: earlier) ↔ .program ∈ inProgress earlier := by
  generalize hevent : Event.fieldMissed ref cls field = event at h ⊢
  induction h with
  | missed => simp [Aborts]
  | aborted => cases hevent
  | after hf hrest _ ih =>
      rw [hrest.inProgress_append, hf.nests.2 trivial, List.append_nil, ← ih hs hevent,
        ← List.cons_append, ← List.append_assoc, aborts_append]
      exact or_iff_left (hf.not_aborts_of_done hp)
  | @leaves w opening event closing activity part later ho hb hc _ ih =>
      have hshape : closing :: later ++ event :: (part ++ [opening]) =
          closing :: (later ++ event :: part ++ [opening]) := by simp
      rw [hshape, hb.inProgress_opened ho, List.mem_append, List.mem_singleton,
        ← ih trivial hevent]
      cases hc with
      | left | returned =>
          rw [aborts_closed ho (by simp)]
          simp
      | aborted =>
          rw [aborts_cons]
          simp
  | gone | stopped => exact hs.elim

theorem program_block_sublist_concat {xs : List Activity} {activity : Activity} :
    List.Sublist [.program, .block] (xs ++ [activity]) ↔
      List.Sublist [.program, .block] xs ∨ activity = .block ∧ .program ∈ xs := by
  constructor
  · intro h
    obtain ⟨front, back, heq, hfront, hback⟩ := List.sublist_append_iff.mp h
    obtain hnone | ⟨rest, rfl, hrest⟩ := List.sublist_cons_iff.mp hback
    · rw [List.sublist_nil.mp hnone, List.append_nil] at heq
      exact .inl (heq ▸ hfront)
    · rw [List.sublist_nil.mp hrest] at heq
      have hends : [Activity.program] ++ [.block] = front ++ [activity] := heq
      obtain ⟨rfl, hlast⟩ := List.append_singleton_inj.mp hends
      exact .inr ⟨hlast.symm, List.singleton_sublist.mp hfront⟩
  · intro h
    obtain h | ⟨rfl, h⟩ := h
    · exact h.trans (List.sublist_append_left _ _)
    · exact (List.singleton_sublist.mpr h).append (List.Sublist.refl [Activity.block])

/-- After an absent field was read, the error is stopped exactly if a program is
running within a block. -/
theorem Unwinding.blockExit_iff_of_missed {e : RuntimeError} {earlier later : List Event}
    {ref : InstanceRef} {cls : ClassInfo} {field : Name} (hp : p.recovers = false)
    (h : Unwinding p e w earlier (.fieldMissed ref cls field) later ending) :
    ending = .blockExit ↔ RunsInBlock earlier := by
  generalize hevent : Event.fieldMissed ref cls field = event at h
  unfold RunsInBlock
  induction h with
  | missed => simp
  | aborted => cases hevent
  | after hf hs _ ih =>
      rw [hs.inProgress_append, hf.nests.2 trivial, List.append_nil]
      exact ih hevent
  | @leaves w opening event closing activity part later ho hb hc hin ih =>
      subst hevent
      rw [hb.inProgress_opened ho, program_block_sublist_concat, ← ih rfl]
      constructor
      · nofun
      · intro hin
        obtain h | ⟨rfl, hprogram⟩ := hin
        · cases h
        · cases hc with
          | left hs hne =>
              cases opening <;> cases ho
              exact absurd ((hin.aborts_iff_of_missed hp hs).mpr hprogram)
                ((hb.alive.1 hs).left hne).1
  | @gone w event part later hb hc hin ih =>
      subst hevent
      rw [hb.inProgress_opened rfl, program_block_sublist_concat]
      have haborts := ((hb.alive.1 trivial).gone hc).1
      exact ⟨fun _ => .inr ⟨rfl, (hin.aborts_iff_of_missed hp trivial).mp haborts⟩, fun _ => rfl⟩
  | stopped ho hb _ ih =>
      rw [hb.inProgress_opened ho, program_block_sublist_concat]
      exact ⟨fun _ => .inl ((ih hevent).mp rfl), fun _ => rfl⟩

end

end FieldScript
