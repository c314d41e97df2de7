import FieldScript.Proofs.Supplies

/-!
# FieldScript.Proofs.Emits

Computations act through events alone.

Whatever a computation does, it leads from the world it starts in to the world after
its events, however it ends.  `Emits Q` says so and that its events have the
property `Q`.  A property that two stretches of a run pass on to the whole
(`Compositional`) has to be shown of single events, of traces and of what a host
supplies; then it holds

* of expressions and calls, if it holds of the programs that functions run
  (`Host.emits_eval`, `Host.emits_call`);
* of the requests of a session (`Request.emits_perform`).
-/

namespace FieldScript

/-! ## properties of stretches -/

/-- A property of the events that happen from a world on, which holds of a stretch if
it holds of its parts. -/
structure Compositional (Q : World → List Event → Prop) : Prop where
  nil : ∀ w, Q w []
  append : ∀ {w first second}, Q w first → Q (w.afterAll first) second → Q w (second ++ first)

/-- An event that an expression or a call brings about by itself, not through a
program that a function runs. -/
def Event.OutsidePrograms : Event → Prop
  | .instantiated _ _ | .fieldMissed _ _ _ | .fieldSet _ _ _ | .fallbackUsed _ _ | .clockRead
  | .callEntered _ _ | .callLeft => True
  | _ => False

theorem Event.IsAct.outsidePrograms {event : Event} (h : event.IsAct) : event.OutsidePrograms := by
  cases event <;> trivial

/-- The property holds of each of these events by itself. -/
def HoldsOutside (Q : World → List Event → Prop) : Prop :=
  ∀ w event, event.OutsidePrograms → Q w [event]

section Emitting

variable {α β : Type} {Q : World → List Event → Prop}

/-- A computation leads to the world after its events, and these have the property. -/
def Emits (Q : World → List Event → Prop) (x : Exec α) : Prop :=
  ∀ m : Machine, ∃ events, x.final m = ⟨m.world.afterAll events, events ++ m.journal⟩ ∧
    Q m.world events

/-- The journal of a computation has the property, and leads to the world in which
it ends. -/
theorem Emits.journal {x : Exec α} (hx : Emits Q x) (w : World) :
    Q w (x.journal w) ∧ (x.final ⟨w, []⟩).world = w.afterAll (x.journal w) := by
  obtain ⟨events, hfinal, hq⟩ := hx ⟨w, []⟩
  have hjournal : x.journal w = events := by rw [Exec.journal, hfinal, List.append_nil]
  rw [hjournal, hfinal]
  exact ⟨hq, rfl⟩

/-! ## putting computations together -/

section Parts

/-- A computation that leaves the machine alone has no events. -/
theorem emits_of_final {x : Exec α} (hQ : Compositional Q) (hx : ∀ m, x.final m = m) :
    Emits Q x := by
  intro m
  exact ⟨[], hx m, hQ.nil m.world⟩

/-- An event by itself. -/
theorem emits_emit {event : Event} (h : ∀ w, Q w [event]) : Emits Q (Exec.emit event) := by
  intro m
  exact ⟨[event], rfl, h m.world⟩

/-- The events of a sequence are those of its parts. -/
theorem Emits.bind {x : Exec α} {f : α → Exec β} (hQ : Compositional Q) (hx : Emits Q x)
    (hf : ∀ a, Emits Q (f a)) : Emits Q (x >>= f) := by
  intro m
  obtain ⟨first, hfinal, hfirst⟩ := hx m
  cases hrun : x m with
  | ok a m' =>
      rw [Exec.final_of_ok hrun] at hfinal
      subst hfinal
      obtain ⟨second, hfinal', hsecond⟩ := hf a ⟨m.world.afterAll first, first ++ m.journal⟩
      refine ⟨second ++ first, ?_, hQ.append hfirst hsecond⟩
      rw [Exec.final, Exec.bind_run, hrun, World.afterAll_append, List.append_assoc]
      exact hfinal'
  | error stop m' =>
      rw [Exec.final_of_error hrun] at hfinal
      refine ⟨first, ?_, hfirst⟩
      rw [Exec.final, Exec.bind_run, hrun]
      exact hfinal

/-- Settling a computation changes what it answers and nothing else. -/
theorem Exec.final_settle (x : Exec α) (m : Machine) : (settle x).final m = x.final m := by
  obtain ⟨outcome, hrun, _⟩ | ⟨stop, hrun, _⟩ := settle_cases x m
  · exact final_of_ok hrun
  · exact final_of_error hrun

/-- Settling keeps the events. -/
theorem Emits.settle {x : Exec α} (hx : Emits Q x) : Emits Q (Exec.settle x) := by
  intro m
  rw [Exec.final_settle]
  exact hx m

/-- A computation whose traces have the property emits it. -/
theorem emits_of_traced {x : Exec α}
    (hQ : ∀ {w events ending}, Trace .all w events ending → Q w events)
    (hx : ∀ s : Store, Traced .all s.functions x) : Emits Q x := by
  intro m
  obtain ⟨events, hfinal, ht⟩ := hx m.world.store m rfl
  exact ⟨events, hfinal, hQ ht⟩

/-- What a host supplies emits any property that all supplies have. -/
theorem Supplies.emits {x : Exec α} (hx : Supplies x)
    (hQ : ∀ {w events}, (∀ event ∈ events, event.IsSupply) → Q w events) : Emits Q x := by
  intro m
  obtain ⟨a, events, hrun, hall⟩ := hx m
  exact ⟨events, Exec.final_of_ok hrun, hQ hall⟩

end Parts

/-! ## expressions and calls -/

section Outside

variable (hQ : Compositional Q)

include hQ

/-- Sequences of emitting computations are emitting. -/
theorem sequential_emits : Sequential (Emits Q) where
  pure _ := emits_of_final hQ fun _ => rfl
  fail _ _ _ _ := emits_of_final hQ fun _ => rfl
  context := emits_of_final hQ fun _ => rfl
  bind hx hf := hx.bind hQ hf

/-- So is all that expressions and functions do outside programs. -/
theorem hosted_emits (hout : HoldsOutside Q) : Hosted (Emits Q) where
  toSequential := sequential_emits hQ
  raise _ := emits_of_final hQ fun _ => rfl
  store := emits_of_final hQ fun _ => rfl
  act h := emits_emit fun w => hout w _ h.outsidePrograms
  tooDeep := emits_of_final hQ fun _ => rfl
  look := emits_of_final hQ fun _ => rfl
  settle := Emits.settle
  setField _ _ _ := emits_emit fun w => hout w _ trivial
  enterCall _ _ := emits_emit fun w => hout w _ trivial
  leaveCall := emits_emit fun w => hout w _ trivial

/-- A call has the property if the programs do that functions run. -/
theorem Host.emits_call (hout : HoldsOutside Q) (h : Host)
    (hprogram : ∀ depth program, Emits Q (h.run depth program)) (depth : Nat)
    (site : Location) (ref : FunctionRef) (args : List Located) :
    Emits Q (h.call depth site ref args) :=
  h.has_call (hosted_emits hQ hout) (fun depth _ => hprogram depth) depth site ref args

/-- Expressions emit what the programs of functions emit. -/
theorem Host.emits_eval (hout : HoldsOutside Q) (h : Host)
    (hprogram : ∀ depth program, Emits Q (h.run depth program)) (depth : Nat) (expr : Expr) :
    Emits Q (h.eval depth expr) := by
  have hcall := Host.emits_call hQ hout h hprogram depth
  exact expr.has_eval ((hosted_emits hQ hout).evaluative hcall)

end Outside

/-! ## requests -/

/-- A request has the property if all traces do, and so does what a host supplies. -/
theorem Request.emits_perform (hQ : Compositional Q)
    (htrace : ∀ {w events ending}, Trace .all w events ending → Q w events)
    (hsupply : ∀ {w events}, (∀ event ∈ events, event.IsSupply) → Q w events)
    (host : Host) (depth : Nat) (request : Request) : Emits Q (request.perform host depth) :=
  request.has_perform_of_traced (sequential_emits hQ) (emits_of_traced htrace) (·.emits hsupply)
    host depth

end Emitting

end FieldScript
