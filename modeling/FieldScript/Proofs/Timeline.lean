import FieldScript.Proofs.Emits
import FieldScript.Proofs.Sessions

/-!
# FieldScript.Proofs.Timeline

Sessions moment by moment.

Requests work each on one context of a session and share its store.  A timeline
lists everything that has happened in a session, latest first: the events of its
requests and the copies of contexts.  Contexts and stores change independently
(`World.after_eq`), so a timeline leads from the session at its start to the session
at that moment (`Session.afterAll`), and a context is what the events it has seen made
of it, those before it was copied included (`Session.lives`).

`Session.Moment` is every moment of a session, those in the middle of a request
included.  Between requests it comes to the sessions that requests lead to
(`Session.reaches_iff_past`).
-/

namespace FieldScript

/-! ## contexts and stores apart -/

/-- The context once an event has happened, whatever store goes with it. -/
def Context.after (c : Context) (event : Event) : Context := (World.after ⟨c, ∅⟩ event).context

/-- The store once an event has happened, whatever context goes with it. -/
def Store.after (s : Store) (event : Event) : Store :=
  (World.after ⟨.new .raise ∅, s⟩ event).store

/-- An event changes context and store independently. -/
theorem World.after_eq (w : World) (event : Event) :
    w.after event = ⟨w.context.after event, w.store.after event⟩ := by
  cases event with
  | assigned name value =>
      simp only [Context.after, Store.after, after]
      cases w.context.assign name value <;> cases (Context.new .raise ∅).assign name value <;> rfl
  | _ => rfl

/-- The context after a journal of events, latest first. -/
def Context.afterAll (c : Context) : List Event → Context
  | [] => c
  | event :: earlier => (c.afterAll earlier).after event

/-- The store after a journal of events, latest first. -/
def Store.afterAll (s : Store) : List Event → Store
  | [] => s
  | event :: earlier => (s.afterAll earlier).after event

/-- A journal changes context and store independently. -/
theorem World.afterAll_eq (w : World) (events : List Event) :
    w.afterAll events = ⟨w.context.afterAll events, w.store.afterAll events⟩ := by
  induction events with
  | nil => rfl
  | cons event earlier ih =>
      rw [afterAll_cons, after_eq, ih]
      rfl

/-! ## timelines -/

/-- Something that happens in a session. -/
inductive Happening where
  /-- An event of a request in the context at this index. -/
  | event (index : Nat) (event : Event)
  /-- The context at this index is copied. -/
  | copied (index : Nat)

/-- A context as it was at the start of a session, and the events it has seen since,
latest first.  A copy has seen the events before it was made. -/
structure Life where
  origin : Context
  events : List Event

/-- The context at this moment of its life. -/
def Life.context (l : Life) : Context := l.origin.afterAll l.events

/-- The events of one request in a context, as they happen in a session. -/
def happenings (index : Nat) (events : List Event) : List Happening :=
  events.map (.event index)

namespace Session

/-- The session once something has happened. -/
def after (s : Session) : Happening → Session
  | .event index event => ⟨s.contexts.modify index (·.after event), s.store.after event⟩
  | .copied index => s.clone index

/-- The session after a timeline. -/
def afterAll (s : Session) : List Happening → Session
  | [] => s
  | happening :: earlier => (s.afterAll earlier).after happening

/-- The lives of the contexts of a session after a timeline. -/
def lives (s : Session) : List Happening → List Life
  | [] => s.contexts.map (⟨·, []⟩)
  | .event index event :: earlier =>
    (s.lives earlier).modify index fun l => ⟨l.origin, event :: l.events⟩
  | .copied index :: earlier => s.lives earlier ++ (s.lives earlier)[index]?.toList

/-- A timeline can be followed in two parts. -/
theorem afterAll_append (s : Session) (later earlier : List Happening) :
    s.afterAll (later ++ earlier) = (s.afterAll earlier).afterAll later := by
  induction later with
  | nil => rfl
  | cons happening rest ih => rw [List.cons_append, afterAll, ih, afterAll]

/-- A copy is added after the contexts there are. -/
theorem contexts_clone (s : Session) (index : Nat) :
    (s.clone index).contexts = s.contexts ++ s.contexts[index]?.toList := by
  rw [clone]
  cases s.contexts[index]? <;> simp

@[simp] theorem store_clone (s : Session) (index : Nat) : (s.clone index).store = s.store := by
  rw [clone]
  cases s.contexts[index]? <;> rfl

/-- How each event changes a store, a timeline does, if changes add up. -/
theorem related_afterAll {R : Store → Store → Prop} (hrefl : ∀ s, R s s)
    (htrans : ∀ {a b c}, R a b → R b c → R a c) (hafter : ∀ s event, R s (s.after event))
    (s : Session) (timeline : List Happening) : R s.store (s.afterAll timeline).store := by
  induction timeline with
  | nil => exact hrefl s.store
  | cons happening earlier ih =>
      refine htrans ih ?_
      cases happening with
      | event index event => exact hafter _ event
      | copied index =>
          rw [afterAll, after, store_clone]
          exact hrefl _

/-- Each context is what the events of its life have made of it. -/
theorem contexts_afterAll (s : Session) (timeline : List Happening) :
    (s.afterAll timeline).contexts = (s.lives timeline).map Life.context := by
  induction timeline with
  | nil => simp [afterAll, lives, Function.comp_def, Life.context, Context.afterAll]
  | cons happening earlier ih =>
      cases happening with
      | event index event =>
          -- index by index: the event changes one context and adds to one life
          apply List.ext_getElem?
          intro i
          simp only [afterAll, after, lives, ih, List.getElem?_modify, List.getElem?_map,
            Option.map_map, Option.map_eq_map]
          cases (s.lives earlier)[i]? with
          | none => rfl
          | some l => by_cases h : index = i <;> simp [h, Life.context, Context.afterAll]
      | copied index =>
          rw [afterAll, after, contexts_clone, ih, lives, List.map_append]
          cases h : (s.lives earlier)[index]? <;> simp [h]

/-- The events of a request change its context and the store. -/
theorem afterAll_happenings (s : Session) (index : Nat) (events : List Event) :
    s.afterAll (happenings index events) =
      ⟨s.contexts.modify index (·.afterAll events), s.store.afterAll events⟩ := by
  induction events with
  | nil =>
      have hid : s.contexts.modify index (·.afterAll []) = s.contexts := List.modify_id index _
      rw [hid]
      rfl
  | cons event earlier ih =>
      have hcons : happenings index (event :: earlier) =
          .event index event :: happenings index earlier := rfl
      rw [hcons, afterAll, ih, after, List.modify_modify_eq]
      rfl

/-! ## moments -/

variable {host : Host} {s : Session}

/-- What has happened in a session by a moment between two requests. -/
inductive Past (host : Host) (s : Session) : List Happening → Prop where
  | start : Past host s []
  /-- A request has come to an end. -/
  | request {past : List Happening} {w : World} {depth index : Nat} {request : Request}
      (h : Past host s past) (hw : (s.afterAll past).world? index = some w)
      (hend : (request.perform host depth).ending ⟨w, []⟩ ≠ .tooDeep) :
      Past host s (happenings index ((request.perform host depth).journal w) ++ past)
  | clone {past : List Happening} (h : Past host s past) (index : Nat) :
      Past host s (.copied index :: past)

/-- The timeline once a request has been carried out as well, in the context at this
index if there is one. -/
def answered (s : Session) (host : Host) (depth : Nat) (past : List Happening) (index : Nat)
    (request : Request) : List Happening :=
  match (s.afterAll past).world? index with
  | none => past
  | some w => happenings index ((request.perform host depth).journal w) ++ past

/-- Answering a request adds to the past. -/
theorem suffix_answered (s : Session) (host : Host) (depth : Nat) (past : List Happening)
    (index : Nat) (request : Request) : past <:+ s.answered host depth past index request := by
  rw [answered]
  split
  · exact List.suffix_rfl
  · exact List.suffix_append _ _

/-- A request that comes to an end, answered, makes another past. -/
theorem Past.answered {past : List Happening} (h : Past host s past) {depth index : Nat}
    {request : Request}
    (hend : ((s.afterAll past).world? index).all fun w =>
      (request.perform host depth).ending ⟨w, []⟩ ≠ .tooDeep) :
    Past host s (s.answered host depth past index request) := by
  rw [Session.answered]
  cases hw : (s.afterAll past).world? index with
  | none => exact h
  | some w => exact .request h hw (by simpa [hw] using hend)

/-- What has happened in a session by any moment. -/
inductive Moment (host : Host) (s : Session) : List Happening → Prop where
  | between {past : List Happening} (h : Past host s past) : Moment host s past
  /-- A request is being carried out, and these are its events so far. -/
  | during {past : List Happening} {w : World} {depth index : Nat} {request : Request}
      {events : List Event} (h : Past host s past)
      (hw : (s.afterAll past).world? index = some w)
      (hsofar : events <:+ (request.perform host depth).journal w) :
      Moment host s (happenings index events ++ past)

/-- The events that a request has up to now lead from the world it starts in to the
world at this moment. -/
theorem world?_happenings {index : Nat} {w : World} (hw : s.world? index = some w)
    (events : List Event) :
    s.afterAll (happenings index events) =
      ⟨s.contexts.set index (w.afterAll events).context, (w.afterAll events).store⟩ := by
  rw [world?, Option.map_eq_some_iff] at hw
  obtain ⟨c, hc, rfl⟩ := hw
  have hset : s.contexts.modify index (·.afterAll events) =
      s.contexts.set index (c.afterAll events) := by
    obtain ⟨hlt, hget⟩ := List.getElem?_eq_some_iff.mp hc
    apply List.ext_getElem?
    intro i
    rw [List.getElem?_modify, List.getElem?_set]
    by_cases h : index = i
    · subst h
      simp [hlt, hget]
    · simp [h]
  rw [afterAll_happenings, World.afterAll_eq, hset]

/-- An event of a timeline that ends with a request is one of this request or one from
before. -/
theorem cons_suffix_happenings {index i : Nat} {event : Event} {events : List Event}
    {past earlier : List Happening}
    (h : .event index event :: earlier <:+ happenings i events ++ past) :
    .event index event :: earlier <:+ past ∨
      ∃ part, event :: part <:+ events ∧ index = i ∧ earlier = happenings i part ++ past := by
  obtain h | ⟨part, ⟨later, hpart⟩, rfl⟩ := cons_suffix_append_iff.mp h
  · exact .inl h
  · obtain ⟨front, back, rfl, _, hback⟩ := List.map_eq_append_iff.mp hpart.symm
    obtain ⟨head, tail, rfl, hhead, rfl⟩ := List.map_eq_cons_iff.mp hback
    cases hhead
    exact .inr ⟨tail, List.suffix_append _ _, rfl, rfl⟩

/-- An event of a session is one of a request, at some moment of it. -/
theorem Past.of_event {past earlier : List Happening} {index : Nat} {event : Event}
    (h : Past host s past) (he : .event index event :: earlier <:+ past) :
    ∃ before w depth request part, Past host s before ∧
      (s.afterAll before).world? index = some w ∧
      event :: part <:+ (Request.perform host depth request).journal w ∧
      earlier = happenings index part ++ before := by
  induction h with
  | start => cases List.suffix_nil.mp he
  | @request past w depth i request h hw hend ih =>
      obtain he | ⟨part, hpart, rfl, rfl⟩ := cons_suffix_happenings he
      · exact ih he
      · exact ⟨past, w, depth, request, part, h, hw, hpart, rfl⟩
  | clone h i ih =>
      obtain heq | he := List.suffix_cons_iff.mp he
      · cases heq
      · exact ih he

/-- An event of a moment belongs to a request made in an earlier state between requests. -/
theorem Moment.of_event {now earlier : List Happening} {index : Nat} {event : Event}
    (h : Moment host s now) (he : .event index event :: earlier <:+ now) :
    ∃ before w depth request part, Past host s before ∧
      (s.afterAll before).world? index = some w ∧
      event :: part <:+ (Request.perform host depth request).journal w ∧
      earlier = happenings index part ++ before := by
  cases h with
  | between h => exact h.of_event he
  | @during past w depth i request events h hw hsofar =>
      obtain he | ⟨part, hpart, rfl, rfl⟩ := cons_suffix_happenings he
      · exact h.of_event he
      · exact ⟨past, w, depth, request, part, h, hw, hpart.trans hsofar, rfl⟩

/-! ## sessions between requests -/

end Session

/-- A request acts through events alone. -/
theorem Request.world_perform (host : Host) (depth : Nat) (request : Request) (w : World) :
    ((request.perform host depth).final ⟨w, []⟩).world =
      w.afterAll ((request.perform host depth).journal w) := by
  have hemits : Emits (fun _ _ => True) (request.perform host depth) :=
    Request.emits_perform ⟨fun _ => trivial, fun _ _ => trivial⟩ (fun _ => trivial)
      (fun _ => trivial) host depth request
  exact (hemits.journal w).2

/-- A request answered as too deep was too deep. -/
theorem Request.ending_of_outcome {host : Host} {depth : Nat} {request : Request} {w : World}
    (h : (request.answer host depth w).1.outcome = .stopped .tooDeep) :
    (request.perform host depth).ending ⟨w, []⟩ = .tooDeep := by
  rw [Request.answer] at h
  rw [Exec.ending]
  cases hrun : request.perform host depth ⟨w, []⟩ with
  | ok reply m =>
      rw [hrun] at h
      cases reply <;> cases h
  | error stop m =>
      rw [hrun] at h
      cases h
      rfl

namespace Session

variable {host : Host} {s : Session}

/-- Answering a request leads to the session after its events. -/
theorem answer_eq (host : Host) {index : Nat} {w : World} (hw : s.world? index = some w)
    (depth : Nat) (request : Request) :
    s.answer host depth index request = (some (request.answer host depth w).1,
      s.afterAll (happenings index ((request.perform host depth).journal w))) := by
  rw [answer, hw, world?_happenings hw, ← Request.world_perform, ← Request.world_answer]

/-- A past leads where the steps of the session lead. -/
theorem Past.reaches {past : List Happening} (h : Past host s past) :
    Reaches host s (s.afterAll past) := by
  induction h with
  | start => exact .refl
  | @request past w depth index request _ hw hend ih =>
      have hanswer := answer_eq host hw depth request
      rw [afterAll_append]
      have hstep := Step.request depth index request (congrArg Prod.fst hanswer)
        fun hout => hend (Request.ending_of_outcome hout)
      rw [hanswer] at hstep
      exact .step ih hstep
  | clone _ index ih => exact .step ih (.clone index)

/-- The sessions that requests lead to are those at the moments between requests. -/
theorem reaches_iff_past {s' : Session} :
    Reaches host s s' ↔ ∃ past, Past host s past ∧ s.afterAll past = s' := by
  constructor
  · intro h
    induction h with
    | refl => exact ⟨[], .start, rfl⟩
    | @step s' s'' h hstep ih =>
        obtain ⟨past, hpast, rfl⟩ := ih
        cases hstep with
        | request depth index request hanswer hend =>
            cases hw : (s.afterAll past).world? index with
            | none =>
                rw [answer, hw] at hanswer
                cases hanswer
            | some w =>
                rw [answer_eq host hw] at hanswer ⊢
                cases hanswer
                refine ⟨_, .request hpast hw fun h => ?_, afterAll_append s _ past⟩
                exact hend (Request.outcome_answer_of_tooDeep h)
        | clone index => exact ⟨_, .clone hpast index, rfl⟩
  · intro h
    obtain ⟨past, hpast, rfl⟩ := h
    exact hpast.reaches

end Session

end FieldScript
