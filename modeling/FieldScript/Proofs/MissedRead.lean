import FieldScript.Proofs.Unwinding

/-!
# FieldScript.Proofs.MissedRead

Reading an absent field.

No program catches the error of such a read.  Where functions pass errors on, it is
what the run ends with, whichever expressions, blocks, calls and scripts the read is
part of, unless a script was running within a block: then the run stops at the exit
of the block.  Either way nothing is done from that moment on but to leave what is
in progress.
-/

namespace FieldScript

/-! ## the error -/

/-- An error on an absent field says what to do about it. -/
def hasFieldTip : Info := ⟨.tip, "use 'hasField' to check if a field exists before reading it"⟩

/-- Where a class that has a place was declared. -/
def declarationNote (cls : ClassInfo) : Info :=
  ⟨.note, "class '" ++ cls.name ++ "' is declared at " ++ (Location.source cls.declaredAt).text⟩

/-- What goes with the error is the tip, and the note exactly if the class has a
place. -/
theorem missingFieldInfos_eq (cls : ClassInfo) :
    missingFieldInfos cls =
      if cls.declaredAt.isSynthetic then [hasFieldTip]
      else [hasFieldTip, declarationNote cls] := by
  unfold missingFieldInfos
  split <;> rfl

/-! ## what follows it -/

theorem Event.Unwinds.store_after {e : RuntimeError} {event : Event} (h : event.Unwinds e)
    (w : World) : (w.after event).store = w.store := by
  cases event <;> first | rfl | exact h.elim

theorem World.store_afterAll_of_unwinds {e : RuntimeError} {events : List Event}
    (h : ∀ event ∈ events, event.Unwinds e) (w : World) :
    (w.afterAll events).store = w.store := by
  induction events with
  | nil => rfl
  | cons event earlier ih =>
      rw [afterAll_cons, (h event List.mem_cons_self).store_after]
      exact ih fun event' hm => h event' (List.mem_cons_of_mem _ hm)

/-- The field that an event misses is absent, and its class is the instance's. -/
theorem Unwinding.absent {p : Powers} {e : RuntimeError} {w : World}
    {earlier later : List Event} {ref : InstanceRef} {cls : ClassInfo} {field : Name}
    {ending : Ending} (h : Unwinding p e w earlier (.fieldMissed ref cls field) later ending) :
    (w.afterAll earlier).store.classOf ref = cls ∧
      (w.afterAll earlier).store.field? ref field.text = none := by
  generalize hevent : Event.fieldMissed ref cls field = event at h
  induction h with
  | missed hc hf =>
      cases hevent
      exact ⟨hc, hf⟩
  | aborted => cases hevent
  | after _ _ _ ih | leaves _ _ _ _ ih | gone _ _ _ ih | stopped _ _ _ ih =>
      rw [World.afterAll_append]
      exact ih hevent

/-! ## runs -/

/-- A run in which an absent field is read ends with the error made at that read, or
at the exit of a block if a program was running within a block.  After the read only
blocks and calls are left and programs aborted, with the same error.  With the
library alone the run always ends with the error. -/
theorem ending_of_fieldMissed {h : Host} {w : World} (hw : h.Within .forwarding w.store)
    (depth : Nat) (program : Program) {later earlier : List Event} {ref : InstanceRef}
    {cls : ClassInfo} {field : Name}
    (hread : (h.run depth program).journal w = later ++ .fieldMissed ref cls field :: earlier) :
    let run := h.run depth program
    let moment := w.afterAll earlier
    let e : RuntimeError :=
      ⟨.source field.range, .undefinedField cls.name field.text, moment.context.history,
        if cls.declaredAt.isSynthetic then [hasFieldTip] else [hasFieldTip, declarationNote cls]⟩
    (moment.store.classOf ref = cls ∧ moment.store.field? ref field.text = none) ∧
      (run.ending ⟨w, []⟩ = .failed e ∧ ¬ RunsInBlock earlier ∨
        run.ending ⟨w, []⟩ = .blockExit ∧ RunsInBlock earlier) ∧
      (∀ event ∈ later, event.Unwinds e) ∧
      (run.final ⟨w, []⟩).world.store = moment.store ∧
      (w.store.OwnOnly → run.ending ⟨w, []⟩ = .failed e) := by
  intro run moment e
  have he : moment.context.missingField cls field = e := by
    rw [Context.missingField, missingFieldInfos_eq]
    rfl
  obtain ⟨ht, hworld⟩ := (hw.traced_run rfl depth program).trace
  have hout : Unwinding .forwarding e w earlier (.fieldMissed ref cls field) later
      (run.ending ⟨w, []⟩) := ht.unwinding rfl hread (congrArg some he)
  have hexit := hout.blockExit_iff_of_missed rfl
  have hends : run.ending ⟨w, []⟩ = .failed e ∧ ¬ RunsInBlock earlier ∨
      run.ending ⟨w, []⟩ = .blockExit ∧ RunsInBlock earlier := by
    obtain hend | hend := hout.ending_eq
    · have hnot : ¬ run.ending ⟨w, []⟩ = .blockExit := by simp [hend]
      exact .inl ⟨hend, fun hin => hnot (hexit.mpr hin)⟩
    · exact .inr ⟨hend, hexit.mp hend⟩
  have hstore : (run.final ⟨w, []⟩).world.store = moment.store := by
    rw [hworld, hread, World.afterAll_append]
    exact World.store_afterAll_of_unwinds hout.unwinds moment
  have hlibrary (hown : w.store.OwnOnly) : run.ending ⟨w, []⟩ = .failed e := by
    have hleft := (hown.within h .programless).run_ne_blockExit rfl depth program
    exact hout.ending_eq.resolve_right hleft
  exact ⟨hout.absent, hends, hout.unwinds, hstore, hlibrary⟩

/-- Reads a field of a new instance. -/
def readerScript : Program :=
  [.eval .synthetic <| .field .synthetic
    (.call .synthetic (.variable .synthetic ⟨.synthetic, "A"⟩) .synthetic []) ⟨.synthetic, "f"⟩]

/-- Declares a class and runs a script. -/
def classThenScript : Program :=
  [.classDecl .synthetic ⟨.synthetic, "A"⟩,
    .eval .synthetic <| .call .synthetic (.variable .synthetic ⟨.synthetic, "script"⟩)
      .synthetic [.literal .synthetic (.string "reader")]]

/-- The error of a read in a script comes out of the outermost program, with the tip
alone since the class has no place. -/
theorem ending_of_fieldMissed_in_script :
    let run := (Host.ofScripts (fun _ => some readerScript) fun _ => .beforeEpoch).run 3
      classThenScript
    let w := worldWith [scriptFunction]
    ∃ e, run.ending ⟨w, []⟩ = .failed e ∧ e.cause = .undefinedField "A" "f" ∧
      e.infos = [hasFieldTip] ∧ ∀ event ∈ (run.journal w).take 3, event.Unwinds e := by
  intro run w
  have hwithout : w.store.WithoutAttempt := by decide +kernel
  have hread : run.journal w = (run.journal w).take 3 ++
      .fieldMissed ⟨0⟩ ⟨"A", .synthetic⟩ ⟨.synthetic, "f"⟩ :: (run.journal w).drop 4 := by
    decide +kernel
  have hout : ¬ RunsInBlock ((run.journal w).drop 4) := by unfold RunsInBlock; decide +kernel
  obtain ⟨_, hend, hlater, _⟩ :=
    ending_of_fieldMissed (hwithout.within _ _) 3 classThenScript hread
  obtain ⟨hend, _⟩ | ⟨_, hin⟩ := hend
  · exact ⟨_, hend, rfl, rfl, hlater⟩
  · exact absurd hin hout

end FieldScript
