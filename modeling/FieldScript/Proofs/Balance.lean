import FieldScript.Proofs.Runs
import FieldScript.Proofs.Scopes

/-!
# FieldScript.Proofs.Balance

Scopes and calls are in balance.

Blocks and calls are entered and left in pairs, on errors too, with one exception:
a program that fails drops all scopes of blocks and all calls of its context,
whatever is running above it.  So there are two ways for a computation to leave the
scopes and calls it found (`Trace.alive`): if no program failed meanwhile they are
the same as before, and if one did there are none.

The second way is what makes the exit of a block stop a run: the scope of the block
is gone.
-/

namespace FieldScript

/-! ## alive scopes and calls -/

namespace Context

/-- The same scopes and calls are alive in both contexts. -/
def SameAlive (c c' : Context) : Prop :=
  c'.blocks.map (·.id) = c.blocks.map (·.id) ∧ c'.calls = c.calls

/-- Neither a block nor a call is alive. -/
def Bare (c : Context) : Prop := c.blocks = [] ∧ c.calls = []

theorem SameAlive.rfl {c : Context} : c.SameAlive c := by
  constructor <;> rfl

theorem SameAlive.trans {a b c : Context} (h : a.SameAlive b) (h' : b.SameAlive c) :
    a.SameAlive c := by
  obtain ⟨hids, hcalls⟩ := h
  obtain ⟨hids', hcalls'⟩ := h'
  exact ⟨hids'.trans hids, hcalls'.trans hcalls⟩

/-- Where the same is alive, a bare context stays bare. -/
theorem SameAlive.bare {c c' : Context} (h : c.SameAlive c') (hc : c.Bare) : c'.Bare := by
  obtain ⟨hids, hcalls⟩ := h
  rw [hc.1, List.map_nil, List.map_eq_nil_iff] at hids
  exact ⟨hids, hcalls.trans hc.2⟩

/-- A reset context is bare. -/
theorem bare_reset (c : Context) : c.reset.Bare := ⟨rfl, rfl⟩

/-- A bare context has nothing to drop. -/
theorem Bare.reset_eq {c : Context} (h : c.Bare) : c.reset = c := by
  obtain ⟨⟨library, base, blocks, calls⟩, policy, counter⟩ := c
  obtain ⟨rfl, rfl⟩ := h
  rfl

/-- A declaration keeps scopes and calls alive. -/
theorem sameAlive_declare (c : Context) (name : String) (value : Located) :
    c.SameAlive (c.declare name value) := by
  unfold declare
  cases hb : c.blocks with
  | nil => exact ⟨by simp [hb], Eq.refl _⟩
  | cons scope outer => exact ⟨by simp [hb], Eq.refl _⟩

/-- An assignment keeps scopes and calls alive. -/
theorem Assigned.sameAlive {c c' : Context} {name : String} {value : Located}
    (h : c.Assigned name value c') : c.SameAlive c' := by
  have hids : c'.own.map (·.id) = c.own.map (·.id) := by rw [h.own, map_id_replaceFirst]
  rw [Frames.own, Frames.own, List.map_append, List.map_append] at hids
  exact ⟨List.append_cancel_right hids, h.calls⟩

end Context

/-- What is neither begun nor over with leaves the same scopes and calls alive. -/
theorem Event.IsEffect.sameAlive {event : Event} (h : event.IsEffect) (w : World) :
    w.context.SameAlive (w.after event).context := by
  cases event with
  | declared name value => exact Context.sameAlive_declare w.context name value
  | assigned name value =>
      obtain ⟨c', hassigned, hafter⟩ | ⟨_, hafter⟩ := w.after_assigned name value
      · rw [hafter]
        exact hassigned.sameAlive
      · rw [hafter]
        exact .rfl
  | classCreated | instantiated | fieldSet | fallbackUsed | clockRead => exact .rfl
  | _ => exact h.elim

/-! ## failures -/

/-- A program fails in a run if it does in one of its parts. -/
theorem aborts_append {second first : List Event} :
    Aborts (second ++ first) ↔ Aborts second ∨ Aborts first := by
  simp only [Aborts, List.mem_append, exists_or]

/-- A program fails with the latest event, or before it. -/
theorem aborts_cons {event : Event} {events : List Event} :
    Aborts (event :: events) ↔ (∃ e, event = .programAborted e) ∨ Aborts events := by
  simp only [Aborts, List.mem_cons, exists_or, eq_comm]

theorem not_aborts_nil : ¬ Aborts [] := by simp [Aborts]

theorem not_aborts_singleton {event : Event} (h : ∀ e, event ≠ .programAborted e) :
    ¬ Aborts [event] := by
  intro ha
  obtain ⟨e, he⟩ := ha
  exact h e (List.mem_singleton.mp he).symm

/-- What begins something is no failure. -/
theorem aborts_opened {opening : Event} {activity : Activity} {body : List Event}
    (ho : opening.begins? = some activity) : Aborts (body ++ [opening]) ↔ Aborts body := by
  rw [aborts_append, aborts_cons]
  constructor
  · intro h
    obtain h | ⟨e, rfl⟩ | h := h
    · exact h
    · cases ho
    · exact absurd h not_aborts_nil
  · exact .inl

/-- Neither is the end of something but for that of a failed program. -/
theorem aborts_closed {opening closing : Event} {activity : Activity} {body : List Event}
    (ho : opening.begins? = some activity) (hc : ∀ e, closing ≠ .programAborted e) :
    Aborts (closing :: (body ++ [opening])) ↔ Aborts body := by
  rw [aborts_cons, aborts_opened ho]
  exact or_iff_right fun ⟨e, he⟩ => hc e he

/-! ## the two ways to leave scopes and calls -/

/-- What was found is still alive if no program failed, and nothing is if one
did. -/
def Alive (c : Context) (events : List Event) (c' : Context) : Prop :=
  (¬ Aborts events ∧ c.SameAlive c') ∨ (Aborts events ∧ c'.Bare)

/-- Only the failures among the events matter. -/
theorem Alive.congr {c c' : Context} {events events' : List Event} (h : Alive c events c')
    (ha : Aborts events' ↔ Aborts events) : Alive c events' c' := by
  rw [Alive, ha]
  exact h

/-- Two stretches of a run leave what they found, or none if a program failed in one of them. -/
theorem Alive.append {a b c : Context} {second first : List Event} (h : Alive a first b)
    (h' : Alive b second c) : Alive a (second ++ first) c := by
  obtain ⟨hn', hsame'⟩ | ⟨ha', hbare'⟩ := h'
  · obtain ⟨hn, hsame⟩ | ⟨ha, hbare⟩ := h
    · exact .inl ⟨fun ha => (aborts_append.mp ha).elim hn' hn, hsame.trans hsame'⟩
    · exact .inr ⟨aborts_append.mpr (.inr ha), hsame'.bare hbare⟩
  · exact .inr ⟨aborts_append.mpr (.inl ha'), hbare'⟩

/-- The scope of a block is alive on leaving it only if no program failed
meanwhile. -/
theorem Alive.left {c c' : Context} {body : List Event} (h : Alive c.enterBlock body c')
    (hb : c'.blocks ≠ []) : ¬ Aborts body ∧ c.SameAlive c'.leaveBlock := by
  obtain ⟨hn, hids, hcalls⟩ | ⟨_, hbare⟩ := h
  · have hleft : c'.leaveBlock.blocks.map (·.id) = c.blocks.map (·.id) := by
      rw [Context.leaveBlock, List.map_tail, hids]
      rfl
    exact ⟨hn, hleft, hcalls⟩
  · exact absurd hbare.1 hb

/-- The scope of a block is gone on leaving it only if a program failed
meanwhile. -/
theorem Alive.gone {c c' : Context} {body : List Event} (h : Alive c.enterBlock body c')
    (hb : c'.blocks = []) : Aborts body ∧ c'.Bare := by
  obtain ⟨_, hids, _⟩ | h := h
  · rw [hb] at hids
    cases hids
  · exact h

/-- A call that returns leaves the scopes and calls that it found, or none. -/
theorem Alive.returned {c c' : Context} {entry : CallEntry} {body : List Event}
    (h : Alive (c.enterCall entry) body c') : Alive c body c'.leaveCall := by
  obtain ⟨hn, hids, hcalls⟩ | ⟨ha, hblocks, hcalls⟩ := h
  · have hleft : c'.leaveCall.calls = c.calls := by
      rw [Context.leaveCall, hcalls]
      rfl
    exact .inl ⟨hn, hids, hleft⟩
  · have hleft : c'.leaveCall.calls = [] := by
      rw [Context.leaveCall, hcalls]
      rfl
    exact .inr ⟨ha, hblocks, hleft⟩

/-- Something that begins and is over leaves the scopes and calls it found, or
none. -/
theorem Alive.closed {w w' : World} {opening closing : Event} {activity : Activity}
    {body : List Event} {ending : Ending} (ho : opening.begins? = some activity)
    (hc : Closes w'.context activity ending closing)
    (h : Alive (w.after opening).context body w'.context) :
    Alive w.context (closing :: (body ++ [opening])) (w'.after closing).context := by
  cases hc with
  | left hs hb =>
      cases opening <;> cases ho
      obtain ⟨hn, hsame⟩ := h.left hb
      have hclosed : Aborts (.blockLeft :: (body ++ [.blockEntered])) ↔ Aborts body :=
        aborts_closed rfl nofun
      exact .inl ⟨fun ha => hn (hclosed.mp ha), hsame⟩
  | returned entry hs =>
      cases opening <;> cases ho
      exact h.returned.congr (aborts_closed rfl nofun)
  | completed =>
      cases opening <;> cases ho
      exact h.congr (aborts_closed rfl nofun)
  | aborted e => exact .inr ⟨aborts_cons.mpr (.inl ⟨e, rfl⟩), Context.bare_reset _⟩

/-- A computation that settles leaves the scopes and calls it found, or none if a
program failed.  One that stops at the exit of a block leaves none. -/
theorem Trace.alive {p : Powers} {w : World} {events : List Event} {ending : Ending}
    (h : Trace p w events ending) :
    (ending.Settled → Alive w.context events (w.afterAll events).context) ∧
      (ending = .blockExit → (w.afterAll events).context.Bare) := by
  induction h with
  | silent w h => exact ⟨fun _ => .inl ⟨not_aborts_nil, .rfl⟩, fun he => absurd he h⟩
  | @effect w event h =>
      have hn := not_aborts_singleton h.ne_aborted
      exact ⟨fun _ => .inl ⟨hn, h.sameAlive w⟩, nofun⟩
  | @missed w ref cls field hc hf =>
      have hn : ¬ Aborts [.fieldMissed ref cls field] := not_aborts_singleton nofun
      exact ⟨fun _ => .inl ⟨hn, .rfl⟩, nofun⟩
  | andThen hgo hf hs ihf ihs =>
      rw [World.afterAll_append]
      exact ⟨fun hset => (ihf.1 hgo.settled).append (ihs.1 hset), ihs.2⟩
  | @bracket w opening closing activity body ending ho hp hb hc ih =>
      rw [World.afterAll_bracket]
      refine ⟨fun hset => (ih.1 hset).closed ho hc, ?_⟩
      intro heq
      subst heq
      exact hc.settled.elim
  | @gone w body ending hs hb hc ih =>
      rw [World.afterAll_append]
      exact ⟨nofun, fun _ => ((ih.1 hs).gone hc).2⟩
  | @unsettled w opening activity body ending ho hp hs hb ih =>
      rw [World.afterAll_append]
      exact ⟨fun hset => absurd hset hs, ih.2⟩

/-- Where nothing but the library's scope and the base scope is alive, the same holds
afterwards, however the computation ends. -/
theorem Trace.bare {p : Powers} {w : World} {events : List Event} {ending : Ending}
    (h : Trace p w events ending) (hend : ending ≠ .tooDeep) (hw : w.context.Bare) :
    (w.afterAll events).context.Bare := by
  obtain hs | rfl := Ending.settled_or hend
  · obtain ⟨_, hsame⟩ | ⟨_, hbare⟩ := h.alive.1 hs
    · exact hsame.bare hw
    · exact hbare
  · exact h.alive.2 rfl

end FieldScript
