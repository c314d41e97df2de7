import Mathlib.Data.List.Basic
import FieldScript.Proofs.Timeline

/-!
# FieldScript.Proofs.CallHistory

The calls that a context lists are calls in progress.

A context lists the calls that have been entered and not left.  A program that fails
empties the list though the calls around it go on, and each of those, on returning,
takes the latest entry off whatever the list is then.  Nevertheless no call ever takes
off the entry of another: what has been entered since the failure is over before.  So
at every moment the list holds the calls in progress that began after the latest
failure (`liveCalls`), which are all calls in progress as long as no program fails
within a call.
-/

namespace FieldScript

/-! ## what is under way -/

/-- Something in progress, and the events since it began, latest first. -/
structure Span where
  activity : Activity
  since : List Event

/-- More events happen. -/
def Span.grow (later : List Event) (span : Span) : Span := ⟨span.activity, later ++ span.since⟩

/-- What is in progress after a journal, innermost first, with the events since. -/
def underway : List Event → List Span
  | [] => []
  | event :: earlier =>
    let around := (underway earlier).map (Span.grow [event])
    match event.begins? with
    | some activity => ⟨activity, []⟩ :: around
    | none => if event.ends then around.tail else around

/-- What begins is under way from then on. -/
theorem underway_cons_begins {event : Event} {activity : Activity}
    (h : event.begins? = some activity) (earlier : List Event) :
    underway (event :: earlier) = ⟨activity, []⟩ :: (underway earlier).map (Span.grow [event]) := by
  simp [underway, h]

/-- What ends is no longer under way. -/
theorem underway_cons_ends {event : Event} (h : event.ends = true) (earlier : List Event) :
    underway (event :: earlier) = ((underway earlier).map (Span.grow [event])).tail := by
  simp [underway, h, Event.begins?_of_ends h]

/-- Any other event is seen by all that is under way. -/
theorem underway_cons_plain {event : Event} (hb : event.begins? = none)
    (he : event.ends = false) (earlier : List Event) :
    underway (event :: earlier) = (underway earlier).map (Span.grow [event]) := by
  simp [underway, hb, he]

theorem map_activity_grow (later : List Event) (spans : List Span) :
    (spans.map (Span.grow later)).map (·.activity) = spans.map (·.activity) := by
  rw [List.map_map]
  rfl

/-- What is under way is what is in progress. -/
theorem map_activity_underway (events : List Event) :
    (underway events).map (·.activity) = inProgress events := by
  induction events with
  | nil => rfl
  | cons event earlier ih =>
      cases hb : event.begins? with
      | some activity =>
          rw [underway_cons_begins hb, inProgress_cons_begins hb, List.map_cons,
            map_activity_grow, ih]
      | none =>
          cases he : event.ends with
          | true =>
              rw [underway_cons_ends he, inProgress_cons_ends he, List.map_tail,
                map_activity_grow, ih]
          | false =>
              rw [underway_cons_plain hb he, inProgress_cons_plain hb he, map_activity_grow, ih]

/-- Earlier moments of a run in order are in order. -/
theorem Nests.of_suffix {events moment : List Event} (h : Nests events) (hm : moment <:+ events) :
    Nests moment := by
  intro part hpart
  exact h part (hpart.trans hm)

/-- Something of these events is in progress when one of them ends something. -/
theorem Nests.inProgress_ne_nil {closing : Event} {part : List Event}
    (h : Nests (closing :: part)) (hc : closing.ends = true) : inProgress part ≠ [] := by
  intro hnil
  -- otherwise the event would end what was in progress before
  have hwhole := h.whole [.blockEntered]
  have hpart := (h.of_suffix (List.suffix_cons _ _)).whole [.blockEntered]
  rw [List.cons_append, inProgress_cons_ends hc, inProgress_cons_ends hc, hpart, hnil] at hwhole
  cases hwhole

/-- What is under way after two stretches of a run has begun in the second, or it has
begun in the first and has seen the whole second. -/
theorem underway_append {second : List Event} (h : Nests second) (first : List Event) :
    underway (second ++ first) = underway second ++ (underway first).map (Span.grow second) := by
  induction second with
  | nil =>
      have hid : Span.grow [] = id := rfl
      simp [underway, hid]
  | cons event part ih =>
      have hpart := ih (h.of_suffix (List.suffix_cons _ _))
      have hgrow : (underway (part ++ first)).map (Span.grow [event]) =
          (underway part).map (Span.grow [event]) ++
            (underway first).map (Span.grow (event :: part)) := by
        rw [hpart, List.map_append, List.map_map]
        rfl
      rw [List.cons_append]
      cases hb : event.begins? with
      | some activity =>
          rw [underway_cons_begins hb, underway_cons_begins hb, hgrow, List.cons_append]
      | none =>
          cases he : event.ends with
          | true =>
              have hne : (underway part).map (Span.grow [event]) ≠ [] := by
                intro hnil
                apply h.inProgress_ne_nil he
                rw [← map_activity_underway, List.map_eq_nil_iff.mp hnil, List.map_nil]
              rw [underway_cons_ends he, underway_cons_ends he, hgrow,
                List.tail_append_of_ne_nil hne]
          | false => rw [underway_cons_plain hb he, underway_cons_plain hb he, hgrow]

/-- What is under way was in progress at every moment since it began. -/
theorem mem_inProgress_of_mem_underway {events : List Event} {span : Span}
    (h : span ∈ underway events) :
    ∃ opening earlier, events = span.since ++ opening :: earlier ∧
      opening.begins? = some span.activity ∧
      ∀ part, part <:+ span.since → span.activity ∈ inProgress (part ++ opening :: earlier) := by
  induction events generalizing span with
  | nil => cases h
  | cons event earlier ih =>
      have hin : span.activity ∈ inProgress (event :: earlier) := by
        rw [← map_activity_underway]
        exact List.mem_map_of_mem h
      have hgrown (hmem : span ∈ (underway earlier).map (Span.grow [event])) :
          ∃ opening before, event :: earlier = span.since ++ opening :: before ∧
            opening.begins? = some span.activity ∧
            ∀ part, part <:+ span.since →
              span.activity ∈ inProgress (part ++ opening :: before) := by
        obtain ⟨inner, hinner, rfl⟩ := List.mem_map.mp hmem
        obtain ⟨opening, before, rfl, ho, hall⟩ := ih hinner
        refine ⟨opening, before, rfl, ho, fun part hpart => ?_⟩
        obtain rfl | hpart := List.suffix_cons_iff.mp hpart
        · exact hin
        · exact hall part hpart
      cases hb : event.begins? with
      | some activity =>
          rw [underway_cons_begins hb] at h
          obtain rfl | hmem := List.mem_cons.mp h
          · refine ⟨event, earlier, rfl, hb, fun part hpart => ?_⟩
            rw [List.suffix_nil.mp hpart]
            exact hin
          · exact hgrown hmem
      | none =>
          cases he : event.ends with
          | true =>
              rw [underway_cons_ends he] at h
              exact hgrown (List.mem_of_mem_tail h)
          | false =>
              rw [underway_cons_plain hb he] at h
              exact hgrown h

/-! ## calls -/

/-- The entry of a call. -/
def Activity.call? : Activity → Option CallEntry
  | .call entry => some entry
  | .program | .block => none

/-- The calls in progress after a journal, latest first. -/
def callsInProgress (events : List Event) : List CallEntry :=
  (inProgress events).filterMap Activity.call?

/-- The entry of a call, unless a program has failed since it was entered. -/
def Span.liveCall? (span : Span) : Option CallEntry :=
  if Aborts span.since then none else span.activity.call?

/-- The calls in progress that were entered after the latest failure of a program,
latest first. -/
def liveCalls (events : List Event) : List CallEntry := (underway events).filterMap Span.liveCall?

/-- A program failed while a call was in progress. -/
def AbortsInCall (events : List Event) : Prop :=
  ∃ e earlier, .programAborted e :: earlier <:+ events ∧
    ∃ entry, .call entry ∈ inProgress earlier

theorem liveCalls_eq_nil {events : List Event} (h : inProgress events = []) :
    liveCalls events = [] := by
  have hspans : underway events = [] := by
    rw [← List.map_eq_nil_iff (f := (·.activity)), map_activity_underway, h]
  rw [liveCalls, hspans, List.filterMap_nil]

/-- Unless a program fails within a call, no call in progress is left out. -/
theorem liveCalls_eq_callsInProgress {events : List Event} (h : ¬ AbortsInCall events) :
    liveCalls events = callsInProgress events := by
  rw [liveCalls, callsInProgress, ← map_activity_underway, List.filterMap_map]
  apply List.filterMap_congr
  intro span hspan
  rw [Function.comp_apply, Span.liveCall?]
  split
  · next haborts =>
      obtain ⟨opening, earlier, rfl, _, hall⟩ := mem_inProgress_of_mem_underway hspan
      obtain ⟨e, he⟩ := haborts
      obtain ⟨later, part, heq⟩ := List.append_of_mem he
      -- a call that has seen the failure was in progress when it happened
      cases hactivity : span.activity with
      | program | block => rfl
      | call entry =>
          refine absurd ⟨e, part ++ opening :: earlier, ?_, entry, ?_⟩ h
          · rw [heq]
            exact ⟨later, by simp⟩
          · rw [← hactivity]
            apply hall
            rw [heq]
            exact (List.suffix_cons _ _).trans (List.suffix_append _ _)
  · rfl

/-- The calls that a context lists after these events, given those it lists before. -/
def callsAfter (before : List CallEntry) (events : List Event) : List CallEntry :=
  liveCalls events ++ if Aborts events then [] else before

/-- The live calls of one stretch are what the next one finds. -/
theorem liveCalls_append {second : List Event} (h : Nests second) (first : List Event) :
    liveCalls (second ++ first) = callsAfter (liveCalls first) second := by
  rw [liveCalls, underway_append h, List.filterMap_append, callsAfter]
  congr 1
  rw [List.filterMap_map]
  split
  · next haborts =>
      rw [List.filterMap_eq_nil_iff]
      intro span _
      exact if_pos (aborts_append.mpr (.inl haborts))
  · next hkept =>
      apply List.filterMap_congr
      intro span _
      rw [Function.comp_apply, Span.liveCall?, Span.liveCall?, Span.grow]
      simp only [aborts_append, hkept, false_or]

/-- The calls listed after two stretches are found stretch by stretch. -/
theorem callsAfter_append {second : List Event} (h : Nests second) (before : List CallEntry)
    (first : List Event) :
    callsAfter before (second ++ first) = callsAfter (callsAfter before first) second := by
  rw [callsAfter, liveCalls_append h, callsAfter, callsAfter, callsAfter, List.append_assoc]
  by_cases hsecond : Aborts second
  · simp [aborts_append, hsecond]
  · simp [aborts_append, hsecond]

/-! ## every run lists its calls -/

/-- From this world on, the events are in order, and at every moment the context lists
the live calls. -/
structure ListsCalls (w : World) (events : List Event) : Prop where
  nests : Nests events
  calls : ∀ moment, moment <:+ events →
    (w.afterAll moment).context.calls = callsAfter w.context.calls moment

theorem callsAfter_nil (before : List CallEntry) : callsAfter before [] = before := by
  rw [callsAfter, if_neg not_aborts_nil]
  rfl

theorem listsCalls_nil (w : World) : ListsCalls w [] where
  nests := nests_nil
  calls moment h := by
    rw [List.suffix_nil.mp h, callsAfter_nil]
    rfl

/-- Calls are listed throughout a run if they are in both of its parts. -/
theorem listsCalls_append {w : World} {first second : List Event} (hf : ListsCalls w first)
    (hs : ListsCalls (w.afterAll first) second) : ListsCalls w (second ++ first) where
  nests := hs.nests.append hf.nests
  calls moment h := by
    obtain h | ⟨part, hpart, rfl⟩ := suffix_append_iff.mp h
    · exact hf.calls moment h
    · rw [World.afterAll_append, hs.calls part hpart, hf.calls first List.suffix_rfl,
        callsAfter_append (hs.nests.of_suffix hpart)]

theorem compositional_listsCalls : Compositional ListsCalls :=
  ⟨listsCalls_nil, listsCalls_append⟩

/-- A stretch that lists its calls up to its last event and after it. -/
theorem ListsCalls.cons {w : World} {event : Event} {events : List Event}
    (h : ListsCalls w events) (hnests : Nests (event :: events))
    (hcalls : (w.afterAll (event :: events)).context.calls =
      callsAfter w.context.calls (event :: events)) : ListsCalls w (event :: events) where
  nests := hnests
  calls moment hm := by
    obtain rfl | hm := List.suffix_cons_iff.mp hm
    · exact hcalls
    · exact h.calls moment hm

/-- An event that neither begins nor ends anything. -/
theorem listsCalls_plain {w : World} {event : Event} (hb : event.begins? = none)
    (he : event.ends = false) (hcalls : (w.after event).context.calls = w.context.calls) :
    ListsCalls w [event] := by
  refine (listsCalls_nil w).cons (nests_plain hb he) ?_
  have hlive : liveCalls [event] = [] := liveCalls_eq_nil (inProgress_cons_plain hb he [])
  have hkept : ¬ Aborts [event] := not_aborts_singleton fun e heq => by subst heq; cases he
  rw [callsAfter, hlive, if_neg hkept, List.nil_append]
  exact hcalls

/-- A call that is entered is listed. -/
theorem listsCalls_begins {w : World} {opening : Event} {activity : Activity}
    (ho : opening.begins? = some activity) : ListsCalls w [opening] := by
  have hnests : Nests [opening] := nests_nil.opened ho
  refine (listsCalls_nil w).cons hnests ?_
  have hkept : ¬ Aborts [opening] := not_aborts_singleton fun e heq => by subst heq; cases ho
  rw [callsAfter, liveCalls, underway_cons_begins ho, if_neg hkept]
  cases opening <;> cases ho <;>
    simp [underway, Span.liveCall?, not_aborts_nil, Activity.call?, World.after,
      Context.enterBlock, Context.enterCall]

theorem ListsCalls.opened {w : World} {opening : Event} {activity : Activity} {body : List Event}
    (ho : opening.begins? = some activity) (h : ListsCalls (w.after opening) body) :
    ListsCalls w (body ++ [opening]) :=
  listsCalls_append (listsCalls_begins ho) h

/-- At every moment of a trace the context lists the live calls. -/
theorem Trace.listsCalls {p : Powers} {w : World} {events : List Event} {ending : Ending}
    (h : Trace p w events ending) : ListsCalls w events := by
  induction h with
  | silent w h => exact listsCalls_nil w
  | effect w h => exact listsCalls_plain h.begins? h.ends (h.sameAlive w).2
  | missed hc hf => exact listsCalls_plain rfl rfl rfl
  | andThen hgo hf hs ihf ihs => exact listsCalls_append ihf ihs
  | @bracket w opening closing activity body ending ho hp hb hc ih =>
      have hwhole : Trace p w (closing :: (body ++ [opening])) ending := .bracket ho hp hb hc
      obtain ⟨hnests, hover⟩ := hwhole.nests
      -- only the moment of the end is new, and then all that was begun within is over
      refine (ih.opened ho).cons hnests ?_
      rw [callsAfter, liveCalls_eq_nil (hover hc.settled), List.nil_append]
      obtain ⟨hkept, _, hcalls⟩ | ⟨haborts, _, hcalls⟩ := hwhole.alive.1 hc.settled
      · rw [hcalls, if_neg hkept]
      · rw [hcalls, if_pos haborts]
  | gone hs hb hc ih => exact ih.opened rfl
  | unsettled ho hp hs hb ih => exact ih.opened ho

/-- Nothing that a host supplies is a call. -/
theorem listsCalls_of_supply {w : World} {events : List Event}
    (h : ∀ event ∈ events, event.IsSupply) : ListsCalls w events := by
  induction events with
  | nil => exact listsCalls_nil w
  | cons event earlier ih =>
      obtain ⟨hevent, hearlier⟩ := List.forall_mem_cons.mp h
      have hsame := congrArg (·.calls) (hevent.context (w.afterAll earlier))
      have hb : event.begins? = none := by cases event <;> first | rfl | exact hevent.elim
      have he : event.ends = false := by cases event <;> first | rfl | exact hevent.elim
      exact listsCalls_append (ih hearlier) (listsCalls_plain hb he hsame)

/-- At every moment of a request the context lists the live calls. -/
theorem Request.listsCalls (host : Host) (depth : Nat) (request : Request) (w : World) :
    ListsCalls w ((request.perform host depth).journal w) := by
  have hemits : Emits ListsCalls (request.perform host depth) :=
    Request.emits_perform compositional_listsCalls Trace.listsCalls listsCalls_of_supply
      host depth request
  exact (hemits.journal w).1

/-! ## what a call is -/

/-- The events of a call with this entry.  The call is entered, and it is left when what
it has begun is over; what never settles is not left. -/
def CallEvents (entry : CallEntry) (args : Nat) (ending : Ending) (events : List Event) : Prop :=
  ∃ body, Nests body ∧
    ((ending.Settled ∧ inProgress body = [] ∧
        events = .callLeft :: (body ++ [.callEntered entry args])) ∨
      (¬ ending.Settled ∧ events = body ++ [.callEntered entry args]))

/-- A call has an entry with the name of the function and the place of the call. -/
theorem Host.callEvents (h : Host) (depth : Nat) (site : Location) (ref : FunctionRef)
    (args : List Located) (w : World) :
    let x := h.call (depth + 1) site ref args
    CallEvents ⟨(w.store.fn ref).name, site⟩ args.length (x.ending ⟨w, []⟩) (x.journal w) := by
  intro x
  let entry : CallEntry := ⟨(w.store.fn ref).name, site⟩
  let routine := (h.routine (w.store.fn ref).behaviour ⟨site, args⟩).perform h.clock (h.call depth)
  have hcall : x ⟨w, []⟩ = Exec.inCall entry args.length routine ⟨w, []⟩ := rfl
  have hroutine : Traced .all w.store.functions routine :=
    Action.traced_perform h.clock ((h.within_all w.store).traced_call depth) _ (Action.within_all _)
  obtain ⟨body, hbody, ht⟩ :=
    hroutine ((Machine.mk w []).after (.callEntered entry args.length)) rfl
  refine ⟨body, ht.nests.1, ?_⟩
  obtain ⟨outcome, hend, hrun⟩ | ⟨stop, hend, hs, hrun⟩ :=
    Exec.inCall_cases entry args.length routine ⟨w, []⟩
  · have hsettled := Ending.settled_ofOutcome outcome
    have hreturn := hcall.trans hrun
    refine .inl ⟨?_, ht.nests.2 (hend ▸ hsettled), ?_⟩
    · rwa [Exec.ending_of_run hreturn, Exec.ending_resume]
    · rw [Exec.journal, Exec.final_of_run hreturn, Exec.final_resume, hbody]
      rfl
  · have hstop := hcall.trans hrun
    refine .inr ⟨?_, ?_⟩
    · rwa [Exec.ending_of_error hstop]
    · rw [Exec.journal, Exec.final_of_error hstop, hbody]
      rfl

/-! ## sessions -/

/-- Between the requests of a session no context lists a call.  In the middle of a
request its context lists the calls in progress that were entered after the latest
failure of a program, oldest first, and an error that arises now carries this list; the
other contexts are as before.  Unless a program has failed within a call, these are all
calls in progress.  The entry of a call has the name of the function and the place of
the call. -/
theorem Session.history_eq_liveCalls {host : Host} {s : Session} (hs : s.Fresh)
    {past : List Happening} (h : Past host s past) :
    (∀ c ∈ (s.afterAll past).contexts, c.history = []) ∧
      (∀ {index depth request w events}, (s.afterAll past).world? index = some w →
        events <:+ (Request.perform host depth request).journal w →
          let now := (w.afterAll events).context
          (s.afterAll (happenings index events ++ past)).contexts =
              (s.afterAll past).contexts.set index now ∧
            now.history = (liveCalls events).reverse ∧
            (∀ location cause infos,
              (now.error location cause infos).calls = (liveCalls events).reverse) ∧
            (¬ AbortsInCall events → now.history = (callsInProgress events).reverse)) ∧
      ∀ depth site ref args w,
        let x := host.call (depth + 1) site ref args
        CallEvents ⟨(w.store.fn ref).name, site⟩ args.length (x.ending ⟨w, []⟩) (x.journal w) := by
  have hbare := h.reaches.bare hs
  refine ⟨fun c hc => ?_, ?_, host.callEvents⟩
  · rw [Frames.history, (hbare c hc).2, List.reverse_nil]
  · intro index depth request w events hw hsofar now
    have hcalls : w.context.calls = [] := by
      obtain ⟨c, hc, rfl⟩ := Option.map_eq_some_iff.mp hw
      exact (hbare c (List.mem_of_getElem? hc)).2
    have hnow : now.calls = liveCalls events := by
      have hlists := (request.listsCalls host depth w).calls events hsofar
      rwa [callsAfter, hcalls, ite_self, List.append_nil] at hlists
    have hhistory : now.history = (liveCalls events).reverse := congrArg List.reverse hnow
    refine ⟨?_, hhistory, fun _ _ _ => hhistory, fun hkept => ?_⟩
    · rw [afterAll_append, world?_happenings hw]
    · rw [hhistory, liveCalls_eq_callsInProgress hkept]

/-! ## a failure within a call -/

/-- A host whose script makes an attempt that fails and then asks what is in progress. -/
def attemptingHost : Host :=
  .ofScripts
    (fun name =>
      if name = "outer" then
        some [.eval .synthetic <| .call .synthetic (.variable .synthetic ⟨.synthetic, "attempt"⟩)
            .synthetic [.literal .synthetic (.string "inner")],
          .eval .synthetic <| .call .synthetic (.variable .synthetic ⟨.synthetic, "inspect"⟩)
            .synthetic []]
      else some [.eval .synthetic (.variable .synthetic ⟨.synthetic, "y"⟩)])
    fun _ => .beforeEpoch

/-- Runs this script. -/
def outerProgram : Program :=
  [.eval .synthetic <| .call .synthetic (.variable .synthetic ⟨.synthetic, "script"⟩)
    .synthetic [.literal .synthetic (.string "outer")]]

namespace Session

/-- When the script asks, the failure in its attempt has taken its own call off the
list, and the return of the attempt has not taken off the call that asks. -/
theorem history_inspect :
    let w := worldWith Library.embeddedFunctions
    let events := (((Request.run outerProgram).perform attemptingHost 4).journal w).drop 4
    let now := (w.afterAll events).context
    now.history = [⟨"inspect", .source .synthetic⟩] ∧ AbortsInCall events ∧
      callsInProgress events =
        [⟨"inspect", .source .synthetic⟩, ⟨"script", .source .synthetic⟩] := by
  intro w events now
  have hw : (start .raise true).2.world? 0 = some w := rfl
  have hlive : liveCalls events = [⟨"inspect", .source .synthetic⟩] := by decide +kernel
  have hcalls : callsInProgress events =
      [⟨"inspect", .source .synthetic⟩, ⟨"script", .source .synthetic⟩] := by decide +kernel
  have hpast : Past attemptingHost (start .raise true).2 [] := .start
  obtain ⟨_, hnow, _, hwhole⟩ :=
    (history_eq_liveCalls (fresh_start .raise true) hpast).2.1 hw (List.drop_suffix 4 _)
  refine ⟨by rw [hnow, hlive]; rfl, ?_, hcalls⟩
  by_contra hkept
  have heq := hwhole hkept
  rw [hnow, hlive, hcalls] at heq
  exact absurd (congrArg List.length heq) (by decide)

end Session

end FieldScript
