import FieldScript.Proofs.Emits
import FieldScript.Proofs.NestedFailure

/-!
# FieldScript.Proofs.ScopeDiscipline

What a block, an expression or a call does to the scopes around it.

As long as no program fails meanwhile, the scopes and calls that were alive are alive
again in the end, on errors too.  The current scope may have gained names, after
those it had, and only programs that functions run can have added them; the scopes
further out have the same names.  An assignment reaches the innermost binding of a
name alone, so a variable that was hidden keeps its value (`Context.Keeps`).
-/

namespace FieldScript

/-! ## levels -/

namespace Frames

/-- The binding of a name in the scope at a level, counted from the current scope
outward. -/
def binding? (f : Frames) (level : Nat) (name : String) : Option Located :=
  f.scopes[level]?.bind (·.vars.get? name)

/-- A scope further in than the one at this level binds the name. -/
def Hides (f : Frames) (level : Nat) (name : String) : Prop :=
  ∃ inner < level, (f.binding? inner name).isSome = true

/-- The names of the scopes, from the current one outward. -/
def names (f : Frames) : List (List String) := f.scopes.map (·.vars.names)

/-- A name is bound at a level if it is among the names there. -/
theorem isSome_binding?_iff (f : Frames) (level : Nat) (name : String) :
    (f.binding? level name).isSome = true ↔ ∃ ns, f.names[level]? = some ns ∧ name ∈ ns := by
  rw [binding?, names, List.getElem?_map]
  cases f.scopes[level]? with
  | none => simp
  | some scope =>
      have hmem := scope.vars.contains_iff_mem_names name
      rw [Bindings.contains] at hmem
      simpa using hmem

end Frames

namespace Context

/-! ## what is kept -/

/-- The surroundings of a computation are kept: the scopes and calls are those from
before, with the names they had and those that the events have declared in the current
scope, and variables that were hidden have their values. -/
structure Keeps (before : Context) (events : List Event) (after : Context) : Prop
    extends before.Intact events after where
  hidden : ∀ level name, before.Hides level name →
    after.binding? level name = before.binding? level name

/-- No name goes away. -/
theorem Intact.isSome_binding? {before after : Context} {events : List Event}
    (h : before.Intact events after) {level : Nat} {name : String}
    (hb : (before.binding? level name).isSome = true) :
    (after.binding? level name).isSome = true := by
  obtain ⟨added, hcurrent, _⟩ := h.current
  have houter := h.outer
  rw [Frames.isSome_binding?_iff, Frames.names, scopes_eq_cons, List.map_cons] at hb ⊢
  obtain ⟨ns, hns, hmem⟩ := hb
  cases level with
  | zero =>
      cases hns
      exact ⟨_, rfl, hcurrent ▸ List.mem_append_left added hmem⟩
  | succ level =>
      rw [List.getElem?_cons_succ] at hns ⊢
      exact ⟨ns, houter ▸ hns, hmem⟩

theorem Intact.rfl {c : Context} (events : List Event) : c.Intact events c where
  ids := Eq.refl _
  outer := Eq.refl _
  current := ⟨[], by simp, by simp⟩
  calls := Eq.refl _

/-- Surroundings stay intact over two stretches of events. -/
theorem Intact.append {a b c : Context} {first second : List Event} (h : a.Intact first b)
    (h' : b.Intact second c) : a.Intact (second ++ first) c where
  ids := h'.ids.trans h.ids
  outer := h'.outer.trans h.outer
  current := by
    obtain ⟨added, hnames, hdeclared⟩ := h.current
    obtain ⟨added', hnames', hdeclared'⟩ := h'.current
    refine ⟨added ++ added', by rw [hnames', hnames, List.append_assoc], fun name hname => ?_⟩
    obtain hname | hname := List.mem_append.mp hname
    · obtain ⟨value, hin⟩ := hdeclared name hname
      exact ⟨value, List.mem_append_right _ hin⟩
    · obtain ⟨value, hin⟩ := hdeclared' name hname
      exact ⟨value, List.mem_append_left _ hin⟩
  calls := h'.calls.trans h.calls

theorem Keeps.rfl {c : Context} (events : List Event) : c.Keeps events c where
  toIntact := .rfl events
  hidden _ _ _ := Eq.refl _

/-- Surroundings that each of two stretches keeps are kept by both together. -/
theorem Keeps.append {a b c : Context} {first second : List Event} (h : a.Keeps first b)
    (h' : b.Keeps second c) : a.Keeps (second ++ first) c where
  toIntact := h.toIntact.append h'.toIntact
  hidden level name hides := by
    obtain ⟨inner, hlt, hbound⟩ := hides
    rw [h'.hidden level name ⟨inner, hlt, h.isSome_binding? hbound⟩,
      h.hidden level name ⟨inner, hlt, hbound⟩]

/-- More events may have happened. -/
theorem Keeps.mono {before after : Context} {events events' : List Event}
    (h : before.Keeps events after) (hsub : events ⊆ events') : before.Keeps events' after where
  ids := h.ids
  outer := h.outer
  current := by
    obtain ⟨added, hnames, hdeclared⟩ := h.current
    refine ⟨added, hnames, fun name hname => ?_⟩
    obtain ⟨value, hin⟩ := hdeclared name hname
    exact ⟨value, hsub hin⟩
  calls := h.calls
  hidden := h.hidden

/-! ## events and brackets -/

theorem names_eq_cons (c : Context) :
    c.names = c.current.vars.names :: c.scopes.tail.map (·.vars.names) := by
  rw [Frames.names, scopes_eq_cons]
  rfl

/-- Where all names are the same, what is left to show is about ids, calls and hidden
variables. -/
theorem Intact.of_names {before after : Context} (events : List Event)
    (hids : after.scopes.map (·.id) = before.scopes.map (·.id))
    (hnames : after.names = before.names) (hcalls : after.calls = before.calls) :
    before.Intact events after := by
  rw [names_eq_cons, names_eq_cons, List.cons.injEq] at hnames
  exact ⟨hids, hnames.2, ⟨[], by simp [hnames.1], by simp⟩, hcalls⟩

/-- A declaration reaches the current scope only. -/
theorem keeps_declare (c : Context) (name : String) (value : Located) :
    c.Keeps [.declared name value] (c.declare name value) where
  ids := by
    rw [scopes_declare, c.scopes_eq_cons]
    rfl
  outer := by rw [scopes_declare, List.tail_cons]
  current := by
    have hcurrent : (c.declare name value).current.vars.names =
        (c.current.vars.insert name value).names := by
      cases h : c.blocks <;> simp [declare, Frames.current, h]
    rw [hcurrent, Bindings.names_insert]
    split
    · exact ⟨[], by simp, by simp⟩
    · exact ⟨[name], rfl, fun _ hn => ⟨value, by simp [List.mem_singleton.mp hn]⟩⟩
  calls := (c.sameAlive_declare name value).2
  hidden level other hides := by
    obtain ⟨inner, hlt, _⟩ := hides
    obtain ⟨level, rfl⟩ : ∃ k, level = k + 1 := ⟨level - 1, by omega⟩
    rw [Frames.binding?, Frames.binding?, scopes_declare, c.scopes_eq_cons]
    rfl

/-- An assignment adds no name, and reaches no binding that is hidden. -/
theorem Assigned.keeps {c c' : Context} {name : String} {value : Located}
    (h : c.Assigned name value c') (events : List Event) : c.Keeps events c' where
  toIntact := by
    refine .of_names events ?_ ?_ h.calls
    · rw [h.scopes, map_id_replaceFirst]
    · rw [Frames.names, h.scopes, names_replaceFirst]
      rfl
  hidden level other hides := by
    obtain ⟨inner, hlt, hbound⟩ := hides
    rw [Frames.binding?, h.scopes]
    exact get?_replaceFirst_of_hidden name other value c.scopes hlt hbound

/-- On leaving a block, the scopes around it have the names they had on entering it. -/
theorem Keeps.left {c c' : Context} {body : List Event} (h : c.enterBlock.Keeps body c')
    (hb : c'.blocks ≠ []) (events : List Event) :
    c.Keeps events c'.leaveBlock ∧ c'.leaveBlock.names = c.names := by
  have hscopes := scopes_leaveBlock hb
  have hnames : c'.leaveBlock.names = c.names := by
    rw [Frames.names, hscopes, h.outer]
    rfl
  have hids : c'.leaveBlock.scopes.map (·.id) = c.scopes.map (·.id) := by
    rw [hscopes, List.map_tail, h.ids]
    rfl
  refine ⟨⟨.of_names events hids hnames h.calls, fun level name hides => ?_⟩, hnames⟩
  obtain ⟨inner, hlt, hbound⟩ := hides
  have hkept := h.hidden (level + 1) name ⟨inner + 1, Nat.succ_lt_succ hlt, hbound⟩
  rw [Frames.binding?, hscopes, List.getElem?_tail]
  exact hkept

/-- A call whose body keeps its surroundings keeps those of the caller. -/
theorem Keeps.returned {c c' : Context} {entry : CallEntry} {body : List Event}
    (h : (c.enterCall entry).Keeps body c') : c.Keeps body c'.leaveCall where
  ids := h.ids
  outer := h.outer
  current := h.current
  calls := by
    rw [leaveCall, h.calls]
    rfl
  hidden := h.hidden

end Context

/-- Every effect keeps the surroundings, but for the name it may declare. -/
theorem Event.IsEffect.keeps {event : Event} (h : event.IsEffect) (w : World) :
    w.context.Keeps [event] (w.after event).context := by
  cases event with
  | declared name value => exact w.context.keeps_declare name value
  | assigned name value =>
      obtain ⟨c', hassigned, hafter⟩ | ⟨_, hafter⟩ := w.after_assigned name value
      · rw [hafter]
        exact hassigned.keeps _
      · rw [hafter]
        exact .rfl _
  | classCreated | instantiated | fieldSet | fallbackUsed | clockRead => exact .rfl _
  | _ => exact h.elim

/-- A computation that settles keeps its surroundings if no program has failed
meanwhile. -/
theorem Trace.keeps {p : Powers} {w : World} {events : List Event} {ending : Ending}
    (h : Trace p w events ending) (hs : ending.Settled) (hn : ¬ Aborts events) :
    w.context.Keeps events (w.afterAll events).context := by
  induction h with
  | silent w h => exact .rfl _
  | effect w h => exact h.keeps w
  | missed hc hf => exact .rfl _
  | andThen hgo hf hs' ihf ihs =>
      rw [aborts_append, not_or] at hn
      rw [World.afterAll_append]
      exact (ihf hgo.settled hn.2).append (ihs hs hn.1)
  | @bracket w opening closing activity body ending ho hp hb hc ih =>
      rw [World.afterAll_bracket]
      have hbody : body ⊆ closing :: (body ++ [opening]) :=
        fun _ hin => List.mem_cons_of_mem _ (List.mem_append_left _ hin)
      have hkeeps := ih hs fun ha => hn (aborts_cons.mpr (.inr ((aborts_opened ho).mpr ha)))
      cases hc with
      | left hset hne =>
          cases opening <;> cases ho
          exact (hkeeps.left hne _).1
      | returned entry hset =>
          cases opening <;> cases ho
          exact hkeeps.returned.mono hbody
      | completed =>
          cases opening <;> cases ho
          exact hkeeps.mono hbody
      | aborted e => exact absurd (aborts_cons.mpr (.inl ⟨e, rfl⟩)) hn
  | gone => exact hs.elim
  | unsettled ho hp hns hb ih => exact absurd hs hns

/-! ## where names come from -/

/-- Every declaration happens while a program is in progress that these events have
started. -/
def DeclaresInPrograms (events : List Event) : Prop :=
  ∀ name value earlier, .declared name value :: earlier <:+ events →
    .program ∈ inProgress earlier

/-- Before every declaration a program was started that is not over since. -/
def DeclaresSinceStart (events : List Event) : Prop :=
  ∀ name value earlier, .declared name value :: earlier <:+ events →
    ∃ part n before, earlier = part ++ .programStarted n :: before ∧ Nests part

/-- What is declared after the start of a program is declared in one. -/
theorem DeclaresSinceStart.inPrograms {events : List Event} (h : DeclaresSinceStart events) :
    DeclaresInPrograms events := by
  intro name value earlier hin
  obtain ⟨part, n, before, rfl, hnests⟩ := h name value earlier hin
  have hstarted : Event.begins? (.programStarted n) = some .program := rfl
  rw [hnests.whole, inProgress_cons_begins hstarted]
  exact List.mem_append_right _ List.mem_cons_self

theorem compositional_declaresSinceStart :
    Compositional fun _ events => DeclaresSinceStart events where
  nil _ _ _ _ h := nomatch List.suffix_nil.mp h
  append {_ first _} hf hs name value earlier hin := by
    obtain hin | ⟨part, hpart, rfl⟩ := cons_suffix_append_iff.mp hin
    · exact hf name value earlier hin
    · obtain ⟨later, n, before, rfl, hnests⟩ := hs name value part hpart
      exact ⟨later, n, before ++ first, by simp, hnests⟩

/-- An event that declares nothing. -/
theorem declaresSinceStart_singleton {event : Event}
    (h : ∀ name value, event ≠ .declared name value) : DeclaresSinceStart [event] := by
  intro name value earlier hin
  exact absurd (List.mem_singleton.mp (hin.subset List.mem_cons_self)).symm (h name value)

/-- Outside programs nothing is declared. -/
theorem declaresSinceStart_outside : HoldsOutside fun _ events => DeclaresSinceStart events := by
  intro _ event hout
  refine declaresSinceStart_singleton fun name value heq => ?_
  subst heq
  exact hout

/-- Whatever a program declares, it does so since it was started. -/
theorem declaresSinceStart_started {body : List Event} (hb : Nests body) (n : Nat) :
    DeclaresSinceStart (body ++ [.programStarted n]) := by
  intro name value earlier hin
  obtain hin | ⟨part, hpart, rfl⟩ := cons_suffix_append_iff.mp hin
  · have hmem := List.mem_singleton.mp (hin.subset List.mem_cons_self)
    cases hmem
  · refine ⟨part, n, [], rfl, fun moment hm => hb moment ?_⟩
    exact hm.trans ((List.suffix_cons _ _).trans hpart)

/-- A program declares after its start. -/
theorem Host.emits_run (h : Host) (depth : Nat) (program : Program) :
    Emits (fun _ events => DeclaresSinceStart events) (h.run depth program) := by
  intro m
  let start := m.after (.programStarted program.length)
  obtain ⟨body, hbody, ht⟩ :=
    (h.within_all start.world.store).traced_body depth program start rfl
  have hstarted := declaresSinceStart_started ht.nests.1 program.length
  have hclosed (closing : Event) (hc : ∀ name value, closing ≠ .declared name value) :
      DeclaresSinceStart (closing :: (body ++ [.programStarted program.length])) :=
    compositional_declaresSinceStart.append (w := m.world) hstarted
      (declaresSinceStart_singleton hc)
  obtain ⟨value, _, hrun⟩ | ⟨e, _, hrun⟩ | ⟨stop, _, _, hrun⟩ :=
    Program.run_cases (h.call depth) program m
  · refine ⟨_, ?_, hclosed .programCompleted (by simp)⟩
    rw [Host.run, Exec.final_of_ok hrun, hbody]
    simp [start, Machine.after, World.afterAll_append]
  · refine ⟨_, ?_, hclosed (.programAborted e) (by simp)⟩
    rw [Host.run, Exec.final_of_error hrun, hbody]
    simp [start, Machine.after, World.afterAll_append]
  · refine ⟨_, ?_, hstarted⟩
    rw [Host.run, Exec.final_of_error hrun, hbody]
    simp [start, Machine.after, World.afterAll_append]

/-! ## blocks, expressions and calls -/

/-- The computation comes to an end, and no program fails meanwhile. -/
def EndsUnfailed {α : Type} (x : Exec α) (w : World) : Prop :=
  x.ending ⟨w, []⟩ ≠ .tooDeep ∧ ¬ Aborts (x.journal w)

section

variable {α : Type} {p : Powers} {x : Exec α} {w : World}

/-- Where no program fails, every block is left. -/
theorem Traced.settled_of_unfailed (hx : Traced p w.store.functions x)
    (h : EndsUnfailed x w) : (x.ending ⟨w, []⟩).Settled := by
  obtain hs | hexit := Ending.settled_or h.1
  · exact hs
  · exact absurd (aborts_of_abortsInBlock (hx.trace.1.blockExit_iff.2 hexit)) h.2

/-- A computation in which no program fails keeps its surroundings. -/
theorem Traced.keeps_of_unfailed (hx : Traced p w.store.functions x)
    (h : EndsUnfailed x w) :
    w.context.Keeps (x.journal w) (x.final ⟨w, []⟩).world.context := by
  obtain ⟨ht, hworld⟩ := hx.trace
  rw [hworld]
  exact ht.keeps (hx.settled_of_unfailed h) h.2

/-- A block leaves all names around it, those of the current scope included. -/
theorem Traced.names_inBlock (hx : Traced p w.store.functions x)
    (h : EndsUnfailed (Exec.inBlock x) w) :
    ((Exec.inBlock x).final ⟨w, []⟩).world.context.names = w.context.names := by
  have hs := (traced_inBlock hx).settled_of_unfailed h
  obtain ⟨body, hbody, ht⟩ := hx ((Machine.mk w []).after .blockEntered) rfl
  obtain ⟨outcome, hend, hb, hrun⟩ | ⟨_, _, _, hrun⟩ | ⟨stop, _, hns, hrun⟩ :=
    Exec.inBlock_cases x ⟨w, []⟩
  · have hfinal : (Exec.inBlock x).final ⟨w, []⟩ =
        (x.final ((Machine.mk w []).after .blockEntered)).after .blockLeft := by
      rw [Exec.final, hrun]
      exact Exec.final_resume outcome _
    -- the events of the body are among those of the block
    have hn : ¬ Aborts body := by
      intro ha
      apply h.2
      rw [Exec.journal, hfinal, hbody]
      exact aborts_cons.mpr (.inr (aborts_append.mpr (.inl ha)))
    rw [hend] at ht
    rw [hbody] at hb
    rw [hfinal, hbody]
    exact ((ht.keeps (Ending.settled_ofOutcome outcome) hn).left hb []).2
  · rw [Exec.ending_of_error hrun] at hs
    exact hs.elim
  · rw [Exec.ending_of_error hrun] at hs
    exact absurd hs hns

end

/-- As long as no program fails meanwhile, a block, an expression or a call that comes
to an end does so with a value or an error and keeps its surroundings: the same scopes
and calls are alive, the scopes have the names they had, and hidden variables have
their values.  A block leaves the names of all scopes as they were; an expression and a
call add names to the current scope only through programs that functions run. -/
theorem keeps_of_endsUnfailed (h : Host) (depth : Nat) (w : World) :
    (∀ block : Block,
      let x := block.run (h.call depth)
      let after := (x.final ⟨w, []⟩).world.context
      EndsUnfailed x w →
        (x.ending ⟨w, []⟩).Settled ∧ w.context.Keeps (x.journal w) after ∧
          after.names = w.context.names) ∧
      (∀ expr,
        let x := h.eval depth expr
        EndsUnfailed x w →
          (x.ending ⟨w, []⟩).Settled ∧
            w.context.Keeps (x.journal w) (x.final ⟨w, []⟩).world.context ∧
            DeclaresInPrograms (x.journal w)) ∧
      (∀ site ref args,
        let x := h.call depth site ref args
        EndsUnfailed x w →
          (x.ending ⟨w, []⟩).Settled ∧
            w.context.Keeps (x.journal w) (x.final ⟨w, []⟩).world.context ∧
            DeclaresInPrograms (x.journal w)) := by
  have hall := h.within_all w.store
  refine ⟨?_, ?_, ?_⟩
  · intro block x after hends
    have hx : Traced .all w.store.functions x := block.traced_run (hall.traced_call depth)
    refine ⟨hx.settled_of_unfailed hends, hx.keeps_of_unfailed hends, ?_⟩
    obtain ⟨range, instrs⟩ := block
    have hbody := Instr.traced_runList (hall.traced_call depth) none instrs
    have hrun : x = Exec.inBlock (Instr.runList (h.call depth) none instrs) := Block.run.eq_def _ _
    simp only [after, hrun] at hends ⊢
    exact hbody.names_inBlock hends
  · intro expr x hends
    have hx : Traced .all w.store.functions x := hall.traced_eval depth expr
    have hemits := Host.emits_eval compositional_declaresSinceStart declaresSinceStart_outside h
      h.emits_run depth expr
    exact ⟨hx.settled_of_unfailed hends, hx.keeps_of_unfailed hends,
      (hemits.journal w).1.inPrograms⟩
  · intro site ref args x hends
    have hx : Traced .all w.store.functions x := hall.traced_call depth site ref args
    have hemits := Host.emits_call compositional_declaresSinceStart declaresSinceStart_outside h
      h.emits_run depth site ref args
    exact ⟨hx.settled_of_unfailed hends, hx.keeps_of_unfailed hends,
      (hemits.journal w).1.inPrograms⟩

/-! ## a hidden variable -/

/-- A world in which a variable of a block hides one of the base scope. -/
def hidingWorld : World :=
  [.declared "x" ⟨.int 1, .source .synthetic⟩, .blockEntered,
    .declared "x" ⟨.int 0, .source .synthetic⟩].foldr (fun event w => w.after event)
      (worldWith [scriptFunction])

/-- Declares a variable and assigns to the one that hides. -/
def hidingScript : Program :=
  [.declare .synthetic ⟨.synthetic, "z"⟩ (.literal .synthetic .null),
    .assign .synthetic ⟨.synthetic, "x"⟩ (.literal .synthetic (.int 2))]

/-- Runs the script. -/
def hidingCall : Expr :=
  .call .synthetic (.variable .synthetic ⟨.synthetic, "script"⟩) .synthetic
    [.literal .synthetic (.string "script")]

/-- A script run within the block assigns to its variable and adds one to the block; the
hidden variable has its value. -/
theorem keeps_hidingCall :
    let x := (Host.ofScripts (fun _ => some hidingScript) fun _ => .beforeEpoch).eval 3 hidingCall
    let after := (x.final ⟨hidingWorld, []⟩).world.context
    after.binding? 0 "x" = some ⟨.int 2, .source .synthetic⟩ ∧
      after.binding? 1 "x" = some ⟨.int 0, .source .synthetic⟩ ∧
      after.names.take 2 = [["x", "z"], ["x"]] ∧ DeclaresInPrograms (x.journal hidingWorld) := by
  intro x after
  have hends : EndsUnfailed x hidingWorld := ⟨by decide +kernel, by decide +kernel⟩
  obtain ⟨_, hkeeps, hdeclares⟩ := (keeps_of_endsUnfailed _ 3 hidingWorld).2.1 hidingCall hends
  have hhides : hidingWorld.context.Hides 1 "x" := ⟨0, by decide, by decide +kernel⟩
  refine ⟨by decide +kernel, ?_, by decide +kernel, hdeclares⟩
  exact (hkeeps.hidden 1 "x" hhides).trans (by decide +kernel)

end FieldScript
