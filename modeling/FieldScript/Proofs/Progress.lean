import FieldScript.Event

/-!
# FieldScript.Proofs.Progress

What is in progress at a moment of a run.

A run keeps the journal of its events, latest first, so its moments are the
suffixes of the journal.  A program, a block and a call each begin with an event
and are over with another; `inProgress` reads off a journal what has begun and is
not over, innermost first.  It knows nothing of the scopes and calls that a context
keeps: where the two differ, a failed program has dropped scopes and calls of
something that still goes on.

* `Nests`: a stretch of a run is over with nothing that it has not begun itself;
* `AbortsInBlock`: a program failed while a block was being executed;
* `RunsInBlock`: a program is running while a block around it is being executed.
-/

namespace FieldScript

/-! ## activities -/

/-- Something that has begun. -/
inductive Activity where
  | program
  | block
  | call (entry : CallEntry)
deriving DecidableEq

/-- What an event begins. -/
def Event.begins? : Event → Option Activity
  | .programStarted _ => some .program
  | .blockEntered => some .block
  | .callEntered entry _ => some (.call entry)
  | _ => none

/-- Is what was begun last over with the event? -/
def Event.ends : Event → Bool
  | .programCompleted | .programAborted _ | .blockLeft | .callLeft => true
  | _ => false

/-- What ends something begins nothing. -/
theorem Event.begins?_of_ends {event : Event} (h : event.ends = true) : event.begins? = none := by
  cases event <;> simp_all [begins?, ends]

/-- What is in progress after a journal, innermost first. -/
def inProgress : List Event → List Activity
  | [] => []
  | event :: earlier =>
    match event.begins? with
    | some activity => activity :: inProgress earlier
    | none => if event.ends then (inProgress earlier).tail else inProgress earlier

@[simp] theorem inProgress_nil : inProgress [] = [] := rfl

/-- What begins is in progress. -/
theorem inProgress_cons_begins {event : Event} {activity : Activity}
    (h : event.begins? = some activity) (earlier : List Event) :
    inProgress (event :: earlier) = activity :: inProgress earlier := by
  simp [inProgress, h]

/-- An end takes off the innermost thing in progress. -/
theorem inProgress_cons_ends {event : Event} (h : event.ends = true) (earlier : List Event) :
    inProgress (event :: earlier) = (inProgress earlier).tail := by
  simp [inProgress, h, Event.begins?_of_ends h]

/-- Any other event leaves what is in progress. -/
theorem inProgress_cons_plain {event : Event} (hb : event.begins? = none)
    (he : event.ends = false) (earlier : List Event) :
    inProgress (event :: earlier) = inProgress earlier := by
  simp [inProgress, hb, he]

/-! ## moments -/

/-- A moment of two stretches of a run is one of the first or, after the whole
first, one of the second. -/
theorem suffix_append_iff {α : Type} {moment second first : List α} :
    moment <:+ second ++ first ↔
      moment <:+ first ∨ ∃ part, part <:+ second ∧ moment = part ++ first := by
  constructor
  · intro h
    obtain ⟨rest, h⟩ := h
    obtain ⟨part, rfl, rfl⟩ | ⟨part, rfl, rfl⟩ := List.append_eq_append_iff.mp h
    · exact .inr ⟨part, List.suffix_append _ _, rfl⟩
    · exact .inl (List.suffix_append _ _)
  · intro h
    obtain h | ⟨part, ⟨rest, rfl⟩, rfl⟩ := h
    · exact List.suffix_append_of_suffix h
    · exact ⟨rest, by simp⟩

/-- An event at a moment of two stretches of a run is one of the first or one of the
second, with the whole first before it. -/
theorem cons_suffix_append_iff {α : Type} {event : α} {earlier second first : List α} :
    event :: earlier <:+ second ++ first ↔
      event :: earlier <:+ first ∨
        ∃ part, event :: part <:+ second ∧ earlier = part ++ first := by
  rw [suffix_append_iff]
  constructor
  · intro h
    obtain h | ⟨part, hp, heq⟩ := h
    · exact .inl h
    · cases part with
      | nil => exact .inl (heq ▸ List.suffix_rfl)
      | cons e part =>
          obtain ⟨rfl, rfl⟩ := List.cons.inj heq
          exact .inr ⟨part, hp, rfl⟩
  · intro h
    obtain h | ⟨part, hp, rfl⟩ := h
    · exact .inl h
    · exact .inr ⟨event :: part, hp, rfl⟩

/-- An event of two stretches of a run is one of the first or one of the second. -/
theorem append_eq_append_cons {α : Type} {second first later earlier : List α} {event : α}
    (h : second ++ first = later ++ event :: earlier) :
    (∃ rest, later = second ++ rest ∧ first = rest ++ event :: earlier) ∨
      ∃ part, second = later ++ event :: part ∧ earlier = part ++ first := by
  obtain ⟨rest, rfl, hf⟩ | ⟨part, rfl, hp⟩ := List.append_eq_append_iff.mp h
  · exact .inl ⟨rest, rfl, hf⟩
  · cases part with
    | nil => exact .inl ⟨[], by simp, by simpa using hp.symm⟩
    | cons e part =>
        obtain ⟨rfl, rfl⟩ := List.cons.inj hp
        exact .inr ⟨part, rfl, rfl⟩

/-! ## nesting -/

/-- At no moment of these events is anything over that was in progress before
them. -/
def Nests (events : List Event) : Prop :=
  ∀ moment, moment <:+ events → ∀ before,
    inProgress (moment ++ before) = inProgress moment ++ inProgress before

/-- Events in order end only what began among them. -/
theorem Nests.whole {events : List Event} (h : Nests events) (before : List Event) :
    inProgress (events ++ before) = inProgress events ++ inProgress before :=
  h events List.suffix_rfl before

theorem nests_nil : Nests [] := by
  intro moment hm before
  simp [List.suffix_nil.mp hm]

/-- One event that neither begins nor ends anything. -/
theorem nests_plain {event : Event} (hb : event.begins? = none) (he : event.ends = false) :
    Nests [event] := by
  intro moment hm before
  obtain rfl | hm := List.suffix_cons_iff.mp hm
  · simp [inProgress_cons_plain hb he]
  · exact nests_nil moment hm before

/-- Two stretches in order are in order together. -/
theorem Nests.append {second first : List Event} (hs : Nests second) (hf : Nests first) :
    Nests (second ++ first) := by
  intro moment hm before
  obtain hm | ⟨part, hp, rfl⟩ := suffix_append_iff.mp hm
  · exact hf moment hm before
  · rw [List.append_assoc, hs part hp, hf.whole, hs part hp, List.append_assoc]

/-- What happens within something that an event begins. -/
theorem Nests.opened {opening : Event} {activity : Activity} {body : List Event}
    (ho : opening.begins? = some activity) (hb : Nests body) : Nests (body ++ [opening]) := by
  refine hb.append ?_
  intro moment hm before
  obtain rfl | hm := List.suffix_cons_iff.mp hm
  · simp [inProgress_cons_begins ho]
  · exact nests_nil moment hm before

/-- What begins before a stretch in order is in progress around it. -/
theorem inProgress_opened {opening : Event} {activity : Activity} {body : List Event}
    (ho : opening.begins? = some activity) (hb : Nests body) :
    inProgress (body ++ [opening]) = inProgress body ++ [activity] := by
  rw [hb.whole, inProgress_cons_begins ho, inProgress_nil]

/-- Something that begins and is over: what happens within is over before. -/
theorem Nests.closed {opening closing : Event} {activity : Activity} {body : List Event}
    (ho : opening.begins? = some activity) (hc : closing.ends = true) (hb : Nests body)
    (hover : inProgress body = []) : Nests (closing :: (body ++ [opening])) := by
  intro moment hm before
  obtain rfl | hm := List.suffix_cons_iff.mp hm
  · have hin := (hb.opened ho).whole before
    rw [List.cons_append, inProgress_cons_ends hc, inProgress_cons_ends hc, hin,
      inProgress_opened ho hb, hover]
    rfl
  · exact hb.opened ho moment hm before

/-- A stretch that is over leaves nothing in progress but what surrounds it, and its end takes that
off. -/
theorem inProgress_closed {opening closing : Event} {activity : Activity} {body : List Event}
    (ho : opening.begins? = some activity) (hc : closing.ends = true) (hb : Nests body)
    (hover : inProgress body = []) : inProgress (closing :: (body ++ [opening])) = [] := by
  rw [inProgress_cons_ends hc, inProgress_opened ho hb, hover]
  rfl

/-! ## failures within blocks -/

/-- A program failed. -/
def Aborts (events : List Event) : Prop := ∃ e, .programAborted e ∈ events

/-- Is the event the failure of a program? -/
def Event.isAbort : Event → Bool
  | .programAborted _ => true
  | _ => false

/-- Whether a program failed can be computed. -/
theorem aborts_iff_any (events : List Event) :
    Aborts events ↔ events.any Event.isAbort = true := by
  rw [List.any_eq_true]
  constructor
  · intro h
    obtain ⟨e, h⟩ := h
    exact ⟨_, h, rfl⟩
  · intro h
    obtain ⟨event, h, hevent⟩ := h
    cases event <;> first | exact ⟨_, h⟩ | cases hevent

instance (events : List Event) : Decidable (Aborts events) :=
  decidable_of_iff _ (aborts_iff_any events).symm

/-- A program failed while a block that these events have entered was being
executed. -/
def AbortsInBlock (events : List Event) : Prop :=
  ∃ e earlier, .programAborted e :: earlier <:+ events ∧ .block ∈ inProgress earlier

/-- A program is running within a block that is being executed. -/
def RunsInBlock (events : List Event) : Prop :=
  List.Sublist [.program, .block] (inProgress events)

end FieldScript
