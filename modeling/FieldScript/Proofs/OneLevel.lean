import FieldScript.Proofs.Copies

/-!
# FieldScript.Proofs.OneLevel

The text of an instance opens one level.

To write a value is to follow references: an opened instance has the values of its fields
written in turn (`Store.write?`), and instances can be in their own fields, at any distance.
Only the opened instance asks for that, though, so two levels are all there ever are, whatever
the store (`Store.write?_eq_text`).

The text of an instance is therefore decided by what is seen of it: its class name, the names
of its fields, and what each field looks like from outside (`Store.SeenAs`).  What is set on
other instances is not part of it, those in its fields included.
-/

namespace FieldScript

/-! ## writing by following references -/

namespace Store

/-- A value is written, with so many levels of references to follow at most; there is no text
if they do not suffice. -/
def write? (s : Store) : Nat → Bool → Value → Option String
  | 0, _, _ => none
  | depth + 1, develop, .inst ref =>
    let name := (s.classOf ref).name
    let fields := (s.inst ref).fields.entries
    if !develop then
      some (name ++ " \x7b ... \x7d")
    else if fields.isEmpty then
      some (name ++ " \x7b\x7d")
    else do
      let texts ← fields.mapM fun p => return p.1 ++ ": " ++ (← s.write? depth false p.2)
      return name ++ " \x7b " ++ ", ".intercalate texts ++ " \x7d"
  | _ + 1, _, value => some (s.closedText value)

/-- A value that is not to be developed takes one level. -/
theorem write?_false (s : Store) (depth : Nat) (value : Value) :
    s.write? (depth + 1) false value = some (s.closedText value) := by
  cases value <;> simp [write?, closedText]

theorem mapM_write?_false (s : Store) (depth : Nat) (ref : InstanceRef) :
    ((s.inst ref).fields.entries.mapM fun p =>
      return p.1 ++ ": " ++ (← s.write? (depth + 1) false p.2)) = some (s.fieldTexts ref) := by
  simp only [write?_false, Option.bind_eq_bind, Option.bind_some]
  exact List.mapM_pure

/-- Two levels suffice for every value of every store. -/
theorem write?_eq_text (s : Store) (depth : Nat) (value : Value) :
    s.write? (depth + 2) true value = some (s.text value) := by
  cases value with
  | inst ref =>
      rw [write?, mapM_write?_false, text_inst, openText]
      cases hfields : (s.inst ref).fields.entries <;> simp [fieldTexts, hfields]
  | null | bool | int | float | string | cls | fn => rfl

/-! ## what happens to others -/

theorem inst_setField_of_ne (s : Store) {ref other : InstanceRef} (h : other ≠ ref) (name : String)
    (value : Value) : (s.setField other name value).inst ref = s.inst ref := by
  rw [inst_setField, if_neg fun heq => h heq.1.symm]

/-- No instance changes its class. -/
theorem classOf_setField (s : Store) (ref other : InstanceRef) (name : String) (value : Value) :
    (s.setField other name value).classOf ref = s.classOf ref := by
  have hcls : ((s.setField other name value).inst ref).cls = (s.inst ref).cls := by
    rw [inst_setField]
    split
    · next h => rw [h.1]; rfl
    · rfl
  rw [classOf, classOf, hcls]
  rfl

theorem looksLike_setField (s : Store) (ref : InstanceRef) (name : String) (value v : Value) :
    s.LooksLike (s.setField ref name value) v v := by
  cases v with
  | inst other => exact .inst (by rw [classOf_setField])
  | cls | fn => constructor <;> rfl
  | null | bool | int | float | string => constructor

theorem seenAs_setField (s : Store) {ref other : InstanceRef} (h : other ≠ ref) (name : String)
    (value : Value) : s.SeenAs (s.setField other name value) ref ref where
  cls := by rw [classOf_setField]
  fields := by
    rw [inst_setField_of_ne s h]
    exact .refl (s.looksLike_setField other name value) _

/-- Fields of instances are set one after the other. -/
def setFields (s : Store) : List (InstanceRef × String × Value) → Store
  | [] => s
  | (ref, name, value) :: rest => (s.setField ref name value).setFields rest

theorem text_setFields (s : Store) {ref : InstanceRef} {sets : List (InstanceRef × String × Value)}
    (h : ∀ p ∈ sets, p.1 ≠ ref) : (s.setFields sets).text (.inst ref) = s.text (.inst ref) := by
  induction sets generalizing s with
  | nil => rfl
  | cons p rest ih =>
      obtain ⟨other, name, value⟩ := p
      have hne : other ≠ ref := h _ List.mem_cons_self
      rw [setFields, ih _ fun q hq => h q (List.mem_cons_of_mem _ hq)]
      exact (s.seenAs_setField hne name value).text_eq.symm

/-- A value has a text in every store, however its instances refer to each other.  The text of
an instance is the same wherever it is seen as the same, and does not change when fields of
others are set. -/
theorem text_one_level (s : Store) :
    (∀ (depth : Nat) (value : Value), s.write? (depth + 2) true value = some (s.text value)) ∧
      (∀ (s' : Store) (ref ref' : InstanceRef), s.SeenAs s' ref ref' →
        s.text (.inst ref) = s'.text (.inst ref')) ∧
      ∀ (ref : InstanceRef) (sets : List (InstanceRef × String × Value)),
        (∀ p ∈ sets, p.1 ≠ ref) → (s.setFields sets).text (.inst ref) = s.text (.inst ref) := by
  refine ⟨s.write?_eq_text, ?_, ?_⟩
  · intro s' ref ref' h
    exact h.text_eq
  · intro ref sets h
    exact s.text_setFields h

/-- An instance is in its own field and in one of another, which holds it. -/
def knotted : Store :=
  { classes := #[⟨"Node", .synthetic⟩]
    instances :=
      #[⟨⟨0⟩, .ofList [("self", .inst ⟨0⟩), ("next", .inst ⟨1⟩)]⟩,
        ⟨⟨0⟩, .ofList [("back", .inst ⟨0⟩)]⟩]
    functions := #[]
    clockReads := 0 }

/-- The same without the knot. -/
def loose : Store :=
  { classes := #[⟨"Leaf", .synthetic⟩, ⟨"Node", .synthetic⟩]
    instances := #[⟨⟨1⟩, ∅⟩, ⟨⟨1⟩, .ofList [("self", .inst ⟨0⟩), ("next", .inst ⟨0⟩)]⟩]
    functions := #[]
    clockReads := 0 }

/-- The knot shows as one level, with or without what the other instance holds. -/
theorem text_one_level_knotted :
    let text := "Node \x7b self: Node \x7b ... \x7d, next: Node \x7b ... \x7d \x7d"
    let cut := [((⟨1⟩ : InstanceRef), "back", Value.null)]
    knotted.write? 2 true (.inst ⟨0⟩) = some text ∧ knotted.SeenAs loose ⟨0⟩ ⟨1⟩ ∧
      loose.text (.inst ⟨1⟩) = text ∧ (∀ p ∈ cut, p.1 ≠ ⟨0⟩) ∧
      (knotted.setFields cut).text (.inst ⟨0⟩) = text := by
  intro text cut
  obtain ⟨hwrites, hseen, hsets⟩ := knotted.text_one_level
  have htext : knotted.text (.inst ⟨0⟩) = text := by decide +kernel
  have hloose : knotted.SeenAs loose ⟨0⟩ ⟨1⟩ :=
    ⟨rfl, .cons ⟨rfl, .inst rfl⟩ (.cons ⟨rfl, .inst rfl⟩ .nil)⟩
  have hcut : ∀ p ∈ cut, p.1 ≠ ⟨0⟩ := by decide
  exact ⟨(hwrites 0 _).trans (congrArg some htext), hloose,
    (hseen loose _ _ hloose).symm.trans htext, hcut, (hsets _ _ hcut).trans htext⟩

end Store

/-! ## in the course of a session -/

namespace Session

variable {s : Session}

theorem inst_afterAll {timeline : List Happening} {ref : InstanceRef}
    (hlt : ref.index < s.store.instances.size)
    (hunset : ∀ index field value, .event index (.fieldSet ref field value) ∉ timeline) :
    (s.afterAll timeline).store.inst ref = s.store.inst ref := by
  induction timeline with
  | nil => rfl
  | cons happening earlier ih =>
      simp only [List.mem_cons, not_or] at hunset
      have hearlier := ih fun index field value => (hunset index field value).2
      rw [afterAll]
      cases happening with
      | event index event =>
          have hreach : s.store.Reaches (s.afterAll earlier).store := by
            simpa [afterAll] using reaches_append s earlier []
          refine (Store.inst_after (Nat.lt_of_lt_of_le hlt hreach.instances) ?_).trans hearlier
          rintro field value rfl
          exact (hunset index field value).1 rfl
      | copied index =>
          rw [after, store_clone]
          exact hearlier

theorem fn_afterAll {ref : FunctionRef} (hlt : ref.index < s.store.functions.size)
    (timeline : List Happening) : (s.afterAll timeline).store.fn ref = s.store.fn ref := by
  induction timeline with
  | nil => rfl
  | cons happening earlier ih =>
      rw [afterAll]
      cases happening with
      | event index event =>
          have hreach : s.store.Reaches (s.afterAll earlier).store := by
            simpa [afterAll] using reaches_append s earlier []
          exact (Store.fn_after event (Nat.lt_of_lt_of_le hlt hreach.functions)).trans ih
      | copied index =>
          rw [after, store_clone]
          exact ih

/-- From outside, a value that exists keeps its looks whatever happens. -/
theorem Sound.looksLike_afterAll (hs : s.Sound) (timeline : List Happening) {v : Value}
    (hv : v.ExistsIn s.store) : s.store.LooksLike (s.afterAll timeline).store v v := by
  have hgrows := s.grows_afterAll timeline
  cases v with
  | cls ref => exact .cls (by rw [(hgrows.classes ref hv).2])
  | fn ref => constructor <;> rw [fn_afterAll hv]
  | inst ref =>
      have hinst := (hgrows.instances ref hv).2.1
      have hcls := (hgrows.classes _ (hs.classes hv)).2
      exact .inst (by rw [Store.classOf, Store.classOf, hinst, hcls])
  | null | bool | int | float | string => constructor

/-- The text of an instance stays as long as no field of the instance itself is set, whatever
else the contexts of the session do. -/
theorem Sound.text_afterAll (hs : s.Sound) {timeline : List Happening} {ref : InstanceRef}
    (href : (Value.inst ref).ExistsIn s.store)
    (hunset : ∀ index field value, .event index (.fieldSet ref field value) ∉ timeline) :
    (s.afterAll timeline).store.text (.inst ref) = s.store.text (.inst ref) := by
  have hinst := inst_afterAll href hunset
  have hseen : s.store.SeenAs (s.afterAll timeline).store ref ref := by
    refine ⟨?_, ?_⟩
    · rw [Store.classOf, Store.classOf, hinst, ((s.grows_afterAll timeline).classes _ _).2]
      exact hs.classes href
    · rw [hinst]
      exact List.forall₂_same.mpr fun p hp =>
        ⟨rfl, hs.looksLike_afterAll timeline (hs.fields href hp)⟩
  exact hseen.text_eq.symm

end Session

end FieldScript
