import FieldScript.Proofs.Timeline

/-!
# FieldScript.Proofs.FieldExistence

Fields that exist stay.

No event takes anything out of a store (`Store.Grows`): an instance keeps its class,
and its fields keep their places and only gain others after them.  What a program
reads of a field, and what `hasField` tells of it, is decided by one look-up, so the
two agree at every moment.  That holds for a whole session, whatever its contexts do
with the instances they share.
-/

namespace FieldScript

/-! ## stores only grow -/

/-- Everything in the first store is in the second: classes are the same, instances
have the same class and their fields in the same order, with others after them. -/
structure Store.Grows (s s' : Store) : Prop where
  classes : ∀ ref : ClassRef, ref.index < s.classes.size →
    ref.index < s'.classes.size ∧ s'.cls ref = s.cls ref
  instances : ∀ ref : InstanceRef, ref.index < s.instances.size →
    ref.index < s'.instances.size ∧ (s'.inst ref).cls = (s.inst ref).cls ∧
      (s.inst ref).fields.names <+: (s'.inst ref).fields.names

namespace Store

theorem Grows.rfl {s : Store} : s.Grows s where
  classes _ h := ⟨h, Eq.refl _⟩
  instances _ h := ⟨h, Eq.refl _, List.prefix_rfl⟩

theorem Grows.trans {a b c : Store} (h : a.Grows b) (h' : b.Grows c) : a.Grows c where
  classes ref href := by
    obtain ⟨hb, heq⟩ := h.classes ref href
    obtain ⟨hc, heq'⟩ := h'.classes ref hb
    exact ⟨hc, heq'.trans heq⟩
  instances ref href := by
    obtain ⟨hb, hcls, hnames⟩ := h.instances ref href
    obtain ⟨hc, hcls', hnames'⟩ := h'.instances ref hb
    exact ⟨hc, hcls'.trans hcls, hnames.trans hnames'⟩

/-- A new instance leaves those there are as they were. -/
theorem inst_addInstance (s : Store) (cls : ClassRef) {ref : InstanceRef}
    (h : ref.index < s.instances.size) : (s.addInstance cls).inst ref = s.inst ref := by
  simp [inst, addInstance, Array.getElem?_push, Nat.ne_of_lt h]

/-- Setting a field changes that instance alone. -/
theorem inst_setField (s : Store) (ref other : InstanceRef) (name : String) (value : Value) :
    (s.setField ref name value).inst other =
      if other = ref ∧ ref.index < s.instances.size then (s.inst ref).setField name value
      else s.inst other := by
  obtain ⟨i⟩ := ref
  obtain ⟨j⟩ := other
  simp only [inst, setField, Array.getElem?_modify, InstanceRef.mk.injEq, eq_comm (a := i)]
  by_cases hij : j = i
  · subst hij
    by_cases hlt : j < s.instances.size <;> simp [hlt]
  · simp [hij]

theorem size_setField (s : Store) (ref : InstanceRef) (name : String) (value : Value) :
    (s.setField ref name value).instances.size = s.instances.size := by
  simp [setField]

/-- A new class takes nothing away. -/
theorem grows_addClass (s : Store) (info : ClassInfo) : s.Grows (s.addClass info) where
  classes ref h := by
    simp only [addClass, cls, Array.size_push, Array.getElem?_push, Nat.ne_of_lt h, if_false,
      and_true]
    omega
  instances _ h := ⟨h, Eq.refl _, List.prefix_rfl⟩

/-- A new instance takes nothing away. -/
theorem grows_addInstance (s : Store) (cls : ClassRef) : s.Grows (s.addInstance cls) where
  classes _ h := ⟨h, Eq.refl _⟩
  instances ref h := by
    rw [inst_addInstance s cls h]
    exact ⟨by simp only [addInstance, Array.size_push]; omega, Eq.refl _, List.prefix_rfl⟩

/-- Setting a field keeps the fields there are in order, with the new one after them. -/
theorem grows_setField (s : Store) (ref : InstanceRef) (name : String) (value : Value) :
    s.Grows (s.setField ref name value) where
  classes _ h := ⟨h, Eq.refl _⟩
  instances other h := by
    rw [size_setField, inst_setField]
    refine ⟨h, ?_⟩
    split
    · next heq =>
        rw [heq.1]
        refine ⟨Eq.refl _, ?_⟩
        rw [Instance.setField, Bindings.names_insert]
        split
        · exact List.prefix_rfl
        · exact List.prefix_append _ _
    · exact ⟨Eq.refl _, List.prefix_rfl⟩

/-- No event takes anything out of a store. -/
theorem grows_after (s : Store) (event : Event) : s.Grows (s.after event) := by
  cases event with
  | classCreated info => exact s.grows_addClass info
  | instantiated cls name => exact s.grows_addInstance cls
  | instanceSupplied cls => exact s.grows_addInstance cls
  | fieldSet ref field value => exact s.grows_setField ref field value
  | functionCreated | clockRead => exact ⟨fun _ h => ⟨h, rfl⟩, fun _ h => ⟨h, rfl, List.prefix_rfl⟩⟩
  | assigned name value =>
      rw [after, World.after]
      split <;> exact .rfl
  | _ => exact .rfl

end Store

/-- Stores grow along a timeline. -/
theorem Session.grows_afterAll (s : Session) (timeline : List Happening) :
    s.store.Grows (s.afterAll timeline).store := by
  refine related_afterAll (R := Store.Grows) ?_ .trans Store.grows_after s timeline
  intro store
  exact .rfl

/-! ## fields that exist -/

/-- An instance has the fields that it lists. -/
theorem Instance.hasField_iff_mem_names (i : Instance) (field : String) :
    i.hasField field = true ↔ field ∈ i.fields.names :=
  i.fields.contains_iff_mem_names field

/-- A field that exists stays. -/
theorem Store.Grows.hasField {s s' : Store} (h : s.Grows s') {ref : InstanceRef} {field : String}
    (hf : (s.inst ref).hasField field = true) : (s'.inst ref).hasField field = true := by
  by_cases hlt : ref.index < s.instances.size
  · rw [Instance.hasField_iff_mem_names] at hf ⊢
    exact (h.instances ref hlt).2.2.subset hf
  · -- a reference that leads nowhere has no fields
    rw [Store.inst, Array.getElem?_eq_none (Nat.le_of_not_lt hlt)] at hf
    cases hf

namespace Store

/-- A new instance has no fields. -/
theorem hasField_addInstance (s : Store) (cls : ClassRef) (ref : InstanceRef) (field : String) :
    ((s.addInstance cls).inst ref).hasField field = (s.inst ref).hasField field := by
  by_cases hlt : ref.index < s.instances.size
  · rw [s.inst_addInstance cls hlt]
  · rw [inst, inst, addInstance, Array.getElem?_push, Array.getElem?_eq_none (Nat.le_of_not_lt hlt)]
    split <;> rfl

/-- Setting a field of an instance is the only way for it to come into existence. -/
theorem hasField_after (s : Store) (event : Event) (ref : InstanceRef) (field : String) :
    ((s.after event).inst ref).hasField field = true ↔
      (s.inst ref).hasField field = true ∨
        ref.index < s.instances.size ∧ ∃ value, event = .fieldSet ref field value := by
  cases event with
  | instantiated cls name =>
      exact (Bool.eq_iff_iff.mp (s.hasField_addInstance cls ref field)).trans (by simp)
  | instanceSupplied cls =>
      exact (Bool.eq_iff_iff.mp (s.hasField_addInstance cls ref field)).trans (by simp)
  | fieldSet other name value =>
      have hset := s.inst_setField other ref name value
      show ((s.setField other name value).inst ref).hasField field = true ↔ _
      rw [hset]
      split
      · next heq =>
          obtain ⟨rfl, hlt⟩ := heq
          rw [Instance.hasField_setField]
          by_cases hname : field = name
          · simp [hname, hlt]
          · simp [hname, Ne.symm hname]
      · next hne =>
          refine (or_iff_left ?_).symm
          rintro ⟨hlt, _, heq⟩
          cases heq
          exact hne ⟨rfl, hlt⟩
  | assigned name value =>
      rw [after, World.after]
      split <;> simp
  | _ =>
      refine (or_iff_left ?_).symm
      rintro ⟨_, _, heq⟩
      cases heq

end Store

namespace Session

/-- A field of an instance has been assigned in the course of a timeline, to whatever
value. -/
def Assigned (s : Session) (timeline : List Happening) (ref : InstanceRef) (field : String) :
    Prop :=
  ∃ index value earlier, .event index (.fieldSet ref field value) :: earlier <:+ timeline ∧
    ref.index < (s.afterAll earlier).store.instances.size

/-- A field has been assigned if the latest event assigns it or an earlier one did. -/
theorem assigned_cons {s : Session} {happening : Happening} {earlier : List Happening}
    {ref : InstanceRef} {field : String} :
    s.Assigned (happening :: earlier) ref field ↔
      s.Assigned earlier ref field ∨ ref.index < (s.afterAll earlier).store.instances.size ∧
        ∃ index value, happening = .event index (.fieldSet ref field value) := by
  constructor
  · intro h
    obtain ⟨index, value, part, h, hlt⟩ := h
    obtain heq | h := List.suffix_cons_iff.mp h
    · obtain ⟨rfl, rfl⟩ := List.cons.inj heq
      exact .inr ⟨hlt, index, value, rfl⟩
    · exact .inl ⟨index, value, part, h, hlt⟩
  · intro h
    obtain ⟨index, value, part, h, hlt⟩ | ⟨hlt, index, value, rfl⟩ := h
    · exact ⟨index, value, part, h.trans (List.suffix_cons _ _), hlt⟩
    · exact ⟨index, value, earlier, List.suffix_rfl, hlt⟩

/-- The fields that exist are those that have been assigned. -/
theorem hasField_iff_assigned {s : Session} (hs : s.store.instances = #[])
    (timeline : List Happening) (ref : InstanceRef) (field : String) :
    ((s.afterAll timeline).store.inst ref).hasField field = true ↔
      s.Assigned timeline ref field := by
  induction timeline with
  | nil =>
      have hnone : ((s.afterAll []).store.inst ref).hasField field = false := by
        rw [afterAll, Store.inst, hs]
        rfl
      rw [hnone]
      refine iff_of_false Bool.false_ne_true ?_
      rintro ⟨_, _, _, h, _⟩
      cases List.suffix_nil.mp h
  | cons happening earlier ih =>
      rw [assigned_cons, ← ih]
      cases happening with
      | event index event =>
          have hevent :
              (∃ i value, Happening.event index event = .event i (.fieldSet ref field value)) ↔
                ∃ value, event = .fieldSet ref field value := by
            simp
          rw [hevent]
          exact Store.hasField_after _ event ref field
      | copied index =>
          rw [afterAll, after, store_clone]
          refine (or_iff_left ?_).symm
          rintro ⟨_, _, _, h⟩
          cases h

end Session

/-! ## telling and reading -/

/-- Reading a field succeeds exactly if the instance has it. -/
theorem readField_ok_iff (ref : InstanceRef) (range : Range) (name : Name) (m : Machine) :
    (∃ value, readField (.inst ref) range name m = .ok value m) ↔
      (m.world.store.inst ref).hasField name.text = true := by
  rw [readField_run, Instance.hasField, ← Store.field?]
  cases m.world.store.field? ref name.text <;> simp

/-- A call of `hasField` with an instance and a name tells whether the instance has
the field. -/
theorem Host.call_hasField (h : Host) (depth : Nat) (site : Location) {fn : FunctionRef}
    (ref : InstanceRef) (field : String) (origin origin' : Location) {m : Machine}
    (hfn : (m.world.store.fn fn).behaviour = .hasField) :
    h.call (depth + 1) site fn [⟨.inst ref, origin⟩, ⟨.string field, origin'⟩] m =
      .ok (.bool ((m.world.store.inst ref).hasField field))
        ((m.after (.callEntered ⟨(m.world.store.fn fn).name, site⟩ 2)).after .callLeft) := by
  simp only [Host.call, Exec.inCall, Exec.bind_run, Exec.store_run, Exec.emit_run,
    Exec.settle_run, hfn]
  rfl

/-- Whenever the read of a field is missed, the instance does not have the field. -/
def MissesAbsent (w : World) (events : List Event) : Prop :=
  ∀ ref cls field earlier, .fieldMissed ref cls field :: earlier <:+ events →
    (w.afterAll earlier).store.field? ref field.text = none

theorem compositional_missesAbsent : Compositional MissesAbsent where
  nil _ _ _ _ _ h := nomatch List.suffix_nil.mp h
  append hf hs ref cls field earlier h := by
    obtain h | ⟨part, hpart, rfl⟩ := cons_suffix_append_iff.mp h
    · exact hf ref cls field earlier h
    · rw [World.afterAll_append]
      exact hs ref cls field part hpart

/-- An event that misses no read. -/
theorem missesAbsent_singleton {event : Event}
    (h : ∀ ref cls field, event ≠ .fieldMissed ref cls field) (w : World) :
    MissesAbsent w [event] := by
  intro ref cls field earlier hin
  exact absurd (List.mem_singleton.mp (hin.subset List.mem_cons_self)).symm (h ref cls field)

/-- Along a trace, only fields that do not exist are missed. -/
theorem Trace.missesAbsent {p : Powers} {w : World} {events : List Event} {ending : Ending}
    (h : Trace p w events ending) : MissesAbsent w events := by
  have hopened {w : World} {opening : Event} {activity : Activity} {body : List Event}
      (ho : opening.begins? = some activity) (hb : MissesAbsent (w.after opening) body) :
      MissesAbsent w (body ++ [opening]) := by
    refine compositional_missesAbsent.append (missesAbsent_singleton ?_ w) hb
    intro _ _ _ heq
    subst heq
    cases ho
  induction h with
  | silent w h => exact compositional_missesAbsent.nil w
  | effect w h =>
      refine missesAbsent_singleton (fun _ _ _ heq => ?_) w
      subst heq
      exact h
  | missed hc hf =>
      intro ref cls field earlier hin
      obtain heq | hin := List.suffix_cons_iff.mp hin
      · cases heq
        exact hf
      · cases List.suffix_nil.mp hin
  | andThen hgo hf hs ihf ihs => exact compositional_missesAbsent.append ihf ihs
  | bracket ho hp hb hc ih =>
      refine compositional_missesAbsent.append (hopened ho ih) (missesAbsent_singleton ?_ _)
      intro _ _ _ heq
      subst heq
      cases hc
  | gone hs hb hc ih => exact hopened rfl ih
  | unsettled ho hp hs hb ih => exact hopened ho ih

/-- What a host supplies misses no read. -/
theorem missesAbsent_of_supply {w : World} {events : List Event}
    (h : ∀ event ∈ events, event.IsSupply) : MissesAbsent w events := by
  intro ref cls field earlier hin
  have hsupply := h _ (hin.subset List.mem_cons_self)
  exact hsupply.elim

/-- Whenever the read of a field is missed in a session, the instance does not have the
field. -/
theorem Session.Moment.field?_eq_none {host : Host} {s : Session} {now earlier : List Happening}
    (h : Moment host s now) {index : Nat} {ref : InstanceRef} {cls : ClassInfo} {field : Name}
    (hin : .event index (.fieldMissed ref cls field) :: earlier <:+ now) :
    (s.afterAll earlier).store.field? ref field.text = none := by
  obtain ⟨before, w, depth, request, part, _, hw, hpart, rfl⟩ := h.of_event hin
  have hemits := Request.emits_perform compositional_missesAbsent Trace.missesAbsent
    missesAbsent_of_supply host depth request
  rw [afterAll_append, world?_happenings hw]
  exact (hemits.journal w).1 ref cls field part hpart

/-- Stores grow from one moment of a timeline to the next. -/
theorem Session.grows_append (s : Session) (later earlier : List Happening) :
    (s.afterAll earlier).store.Grows (s.afterAll (later ++ earlier)).store := by
  rw [afterAll_append]
  exact grows_afterAll _ later

/-- The read of a field that exists is never missed from then on. -/
theorem Session.Moment.not_mem_of_hasField {host : Host} {s : Session}
    {later earlier : List Happening} (h : Moment host s (later ++ earlier)) {ref : InstanceRef}
    {name : String} (hf : ((s.afterAll earlier).store.inst ref).hasField name = true)
    (index : Nat) (cls : ClassInfo) (range : Range) :
    .event index (.fieldMissed ref cls ⟨range, name⟩) ∉ later := by
  intro hin
  obtain ⟨front, part, rfl⟩ := List.append_of_mem hin
  have hmoment : .event index (.fieldMissed ref cls ⟨range, name⟩) :: (part ++ earlier) <:+
      front ++ .event index (.fieldMissed ref cls ⟨range, name⟩) :: part ++ earlier :=
    ⟨front, by simp⟩
  have hmissed := h.field?_eq_none hmoment
  have hstill := (s.grows_append part earlier).hasField hf
  rw [Instance.hasField, ← Store.field?, hmissed] at hstill
  cases hstill

/-! ## sessions -/

/-- A call of `hasField` with an instance and a name that answers yes. -/
def Host.FindsField (h : Host) (s : Store) (ref : InstanceRef) (field : String) : Prop :=
  ∃ m m' depth site fn origin origin', m.world.store = s ∧ (s.fn fn).behaviour = .hasField ∧
    h.call depth site fn [⟨.inst ref, origin⟩, ⟨.string field, origin'⟩] m =
      .ok (.bool true) m'

/-- `hasField` answers `true` only for fields that exist. -/
theorem Host.FindsField.hasField {h : Host} {s : Store} {ref : InstanceRef} {field : String}
    (hfinds : h.FindsField s ref field) : (s.inst ref).hasField field = true := by
  obtain ⟨m, m', depth, site, fn, origin, origin', hm, hfn, hcall⟩ := hfinds
  cases depth with
  | zero => cases hcall
  | succ depth =>
      rw [h.call_hasField depth site ref field origin origin' (hm ▸ hfn), hm] at hcall
      exact Value.bool.inj (EStateM.Result.ok.inj hcall).1

/-- Between a moment of a session and a later one, the store only grows: instances keep
their classes, and their fields keep their places.  At the later moment a suitable
call of `hasField` answers yes if and only if reading the field succeeds, and if and
only if the field has been assigned.  Where such a call has answered yes at the earlier
moment, the field can be read at the later one, and was never missed in between. -/
theorem Session.fields_persist {host : Host} {s : Session} (hs : s.store.instances = #[])
    {later earlier : List Happening} (h : Moment host s (later ++ earlier)) :
    let before := (s.afterAll earlier).store
    let now := (s.afterAll (later ++ earlier)).store
    before.Grows now ∧
      ∀ (ref : InstanceRef) (name : Name),
        (∀ m, m.world.store = now → ∀ depth site fn origin origin' range,
          (now.fn fn).behaviour = .hasField →
            ∃ b m', host.call (depth + 1) site fn
                [⟨.inst ref, origin⟩, ⟨.string name.text, origin'⟩] m = .ok (.bool b) m' ∧
              (b = true ↔ ∃ value, readField (.inst ref) range name m = .ok value m) ∧
              (b = true ↔ s.Assigned (later ++ earlier) ref name.text)) ∧
        (host.FindsField before ref name.text →
          (∀ m range, m.world.store = now →
            ∃ value, readField (.inst ref) range name m = .ok value m) ∧
          ∀ index cls range, .event index (.fieldMissed ref cls ⟨range, name.text⟩) ∉ later) := by
  intro before now
  have hgrows : before.Grows now := s.grows_append later earlier
  refine ⟨hgrows, fun ref name => ⟨?_, ?_⟩⟩
  · intro m hm depth site fn origin origin' range hfn
    rw [← hm] at hfn
    refine ⟨_, _, host.call_hasField depth site ref name.text origin origin' hfn, ?_, ?_⟩
    · rw [readField_ok_iff]
    · rw [hm]
      exact hasField_iff_assigned hs _ ref name.text
  · intro hfound
    have hfield := hfound.hasField
    constructor
    · intro m range hm
      rw [readField_ok_iff, hm]
      exact hgrows.hasField hfield
    · exact h.not_mem_of_hasField hfield

/-! ## a field that is set to null -/

/-- Sets a field of a new instance to null. -/
def nullFieldProgram : Program :=
  [.classDecl .synthetic ⟨.synthetic, "A"⟩,
    .declare .synthetic ⟨.synthetic, "p"⟩
      (.call .synthetic (.variable .synthetic ⟨.synthetic, "A"⟩) .synthetic []),
    .setField .synthetic (.variable .synthetic ⟨.synthetic, "p"⟩) ⟨.synthetic, "f"⟩
      (.literal .synthetic .null)]

/-- Reads a variable that is not there. -/
def unboundProgram : Program := [.eval .synthetic (.variable .synthetic ⟨.synthetic, "y"⟩)]

namespace Session

/-- A field set to null exists, and after a failure in a copy of the context it can
still be read. -/
theorem fields_persist_null :
    let s := (start .raise false).2
    let earlier := s.answered failingHost 3 [] 0 (.run nullFieldProgram)
    let now := s.answered failingHost 3 (.copied 0 :: earlier) 1 (.run unboundProgram)
    failingHost.FindsField (s.afterAll earlier).store ⟨0⟩ "f" ∧ s.Assigned now ⟨0⟩ "f" ∧
      ∀ m : Machine, m.world.store = (s.afterAll now).store →
        ∃ value, readField (.inst ⟨0⟩) .synthetic ⟨.synthetic, "f"⟩ m = .ok value m := by
  intro s earlier now
  have hearlier : Past failingHost s earlier := Past.start.answered (by decide +kernel)
  have hnow : Past failingHost s now := (hearlier.clone 0).answered (by decide +kernel)
  have hsuffix : earlier <:+ now := (List.suffix_cons _ _).trans (suffix_answered s _ _ _ _ _)
  have hempty : s.store.instances = #[] := Array.eq_empty_of_size_eq_zero (by decide +kernel)
  have hfield : ((s.afterAll earlier).store.inst ⟨0⟩).hasField "f" = true := by decide +kernel
  have hfn : ((s.afterAll earlier).store.fn ⟨1⟩).behaviour = .hasField := by decide +kernel
  have hfn' : ((s.afterAll now).store.fn ⟨1⟩).behaviour = .hasField := by decide +kernel
  -- what has been evaluated is not needed any more
  clear_value now earlier s
  have hfound : failingHost.FindsField (s.afterAll earlier).store ⟨0⟩ "f" := by
    have hcall := failingHost.call_hasField 0 (.source .synthetic) ⟨0⟩ "f" (.source .synthetic)
      (.source .synthetic) (m := ⟨⟨.new .raise ∅, (s.afterAll earlier).store⟩, []⟩) hfn
    rw [hfield] at hcall
    exact ⟨_, _, 1, _, ⟨1⟩, _, _, rfl, hfn, hcall⟩
  obtain ⟨later, rfl⟩ := hsuffix
  obtain ⟨htells, hreads⟩ := (fields_persist hempty (.between hnow)).2 ⟨0⟩ ⟨.synthetic, "f"⟩
  have hread := (hreads hfound).1
  refine ⟨hfound, ?_, fun m hm => hread m .synthetic hm⟩
  obtain ⟨b, _, _, hb, hassigned⟩ := htells ⟨⟨.new .raise ∅, _⟩, []⟩ rfl 0 (.source .synthetic) ⟨1⟩
    (.source .synthetic) (.source .synthetic) .synthetic hfn'
  exact hassigned.mp (hb.mpr (hread _ .synthetic rfl))

end Session

end FieldScript
