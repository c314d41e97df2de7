import Mathlib.Data.List.Forall2
import FieldScript.Action
import FieldScript.Proofs.Trace

/-!
# FieldScript.Proofs.Likeness

Worlds that are alike.

Two runs are compared moment by moment.  A `Likeness` says what may differ between
them: places, numbers, the policy and the calls in progress.  Everything else is the
same in both worlds, references included, since runs that go in step add objects to
their stores at the same moments.

Whatever is read of alike worlds is alike, and alike events lead from alike worlds to
alike worlds (`World.Alike.after`).  Alike events give the same lines of the log
(`logOf_eq`).  What differs between two worlds is read off by `World.Alike.eq_with` if
places and values may not.  Texts need less than alike worlds: an instance has the same text
wherever the same is seen of it (`Store.SeenAs.text_eq`).
-/

namespace FieldScript

/-! ## what may differ -/

/-- Which of the runs are compared with others. -/
inductive Extent where
  /-- Those that answer a value. -/
  | answers
  /-- Those that come to an end. -/
  | ends
  | all
deriving DecidableEq

/-- Is a run compared that ends like this? -/
def Extent.Covers : Extent → Ending → Prop
  | _, .done => True
  | .answers, _ => False
  | .ends, ending => ending ≠ .tooDeep
  | .all, _ => True

/-- What counts as alike in two runs, and which runs are compared. -/
structure Likeness where
  range : Range → Range → Prop
  value : Value → Value → Prop
  policy : Policy → Policy → Prop
  /-- Are the calls in progress alike as well? -/
  calls : Bool
  extent : Extent
  /-- The functions that exist in both worlds. -/
  functions : Array Function
  range_refl : ∀ r, range r r
  value_refl : ∀ v, value v v
  /-- Only numbers differ, -/
  value_cases : ∀ {v v'}, value v v' → v = v' ∨ ∃ x x', v = .float x ∧ v' = .float x'
  /-- and no program can tell them apart. -/
  value_same : ∀ {a a' b b'}, value a a' → value b b' → a.same b = a'.same b'

/-- Places and values do not differ at all. -/
structure Likeness.Exact (L : Likeness) : Prop where
  range : ∀ {r r'}, L.range r r' → r = r'
  value : ∀ {v v'}, L.value v v' → v = v'

/-- Only the policy and, if they are not compared, the calls in progress differ. -/
def Likeness.strict (policy : Policy → Policy → Prop) (calls : Bool) (extent : Extent)
    (functions : Array Function) : Likeness where
  range := Eq
  value := Eq
  policy := policy
  calls := calls
  extent := extent
  functions := functions
  range_refl _ := rfl
  value_refl _ := rfl
  value_cases := .inl
  value_same ha hb := ha ▸ hb ▸ rfl

/-- In a strict likeness only the same values and places are alike. -/
theorem Likeness.exact_strict (policy : Policy → Policy → Prop) (calls : Bool) (extent : Extent)
    (functions : Array Function) : (Likeness.strict policy calls extent functions).Exact :=
  ⟨id, id⟩

section Relations

variable (L : Likeness)

/-! ### places and what has a place -/

inductive Location.Alike : Location → Location → Prop where
  | source {r r' : Range} (h : L.range r r') : Alike (.source r) (.source r')
  | internal (producer : String) : Alike (.internal producer) (.internal producer)

structure Located.Alike (a b : Located) : Prop where
  value : L.value a.value b.value
  origin : a.origin.Alike L b.origin

structure Name.Alike (n n' : Name) : Prop where
  range : L.range n.range n'.range
  text : n.text = n'.text

structure ClassInfo.Alike (c c' : ClassInfo) : Prop where
  name : c.name = c'.name
  declaredAt : L.range c.declaredAt c'.declaredAt

structure CallEntry.Alike (e e' : CallEntry) : Prop where
  fn : e.fn = e'.fn
  site : e.site.Alike L e'.site

/-- The same advice, or what goes with the error on an absent field of alike classes. -/
def InfosAlike (infos infos' : List Info) : Prop :=
  infos = infos' ∨ ∃ c c' : ClassInfo, c.Alike L c' ∧
    infos = missingFieldInfos c ∧ infos' = missingFieldInfos c'

structure RuntimeError.Alike (e e' : RuntimeError) : Prop where
  location : e.location.Alike L e'.location
  cause : e.cause = e'.cause
  calls : L.calls = true → List.Forall₂ (CallEntry.Alike L) e.calls e'.calls
  infos : InfosAlike L e.infos e'.infos

inductive Stop.Alike : Stop → Stop → Prop where
  | error {e e' : RuntimeError} (h : e.Alike L e') : Alike (.error e) (.error e')
  | blockExit : Alike .blockExit .blockExit
  | tooDeep : Alike .tooDeep .tooDeep

/-! ### worlds -/

/-- The same names in the same order, bound to related things. -/
def Bindings.Related {α β : Type} (R : α → β → Prop) (b : Bindings α) (b' : Bindings β) : Prop :=
  List.Forall₂ (fun p q => p.1 = q.1 ∧ R p.2 q.2) b.entries b'.entries

/-- Two tables with related entries. -/
def TablesRelated {α β : Type} (R : α → β → Prop) (t : Array α) (t' : Array β) : Prop :=
  ∀ i : Nat, Option.Rel R t[i]? t'[i]?

structure Instance.Alike (i i' : Instance) : Prop where
  cls : i.cls = i'.cls
  fields : i.fields.Related L.value i'.fields

structure Scope.Alike (s s' : Scope) : Prop where
  id : s.id = s'.id
  vars : s.vars.Related (Located.Alike L) s'.vars

structure Frames.Alike (f f' : Frames) : Prop where
  library : f.library.Related (Located.Alike L) f'.library
  base : f.base.Related (Located.Alike L) f'.base
  blocks : List.Forall₂ (Scope.Alike L) f.blocks f'.blocks
  calls : L.calls = true → List.Forall₂ (CallEntry.Alike L) f.calls f'.calls

structure Context.Alike (c c' : Context) : Prop where
  frames : c.toFrames.Alike L c'.toFrames
  policy : L.policy c.policy c'.policy
  counter : c.counter = c'.counter

structure Store.Alike (s s' : Store) : Prop where
  classes : TablesRelated (ClassInfo.Alike L) s.classes s'.classes
  instances : TablesRelated (Instance.Alike L) s.instances s'.instances
  functions : s.functions = L.functions
  functions' : s'.functions = L.functions
  clockReads : s.clockReads = s'.clockReads

structure World.Alike (w w' : World) : Prop where
  context : w.context.Alike L w'.context
  store : w.store.Alike L w'.store

/-! ### events -/

/-- The events of runs that go in step. -/
inductive Event.Alike : Event → Event → Prop where
  | programStarted (n : Nat) : Alike (.programStarted n) (.programStarted n)
  | programCompleted : Alike .programCompleted .programCompleted
  | programAborted {e e' : RuntimeError} (h : e.Alike L e') :
      Alike (.programAborted e) (.programAborted e')
  | blockEntered : Alike .blockEntered .blockEntered
  | blockLeft : Alike .blockLeft .blockLeft
  | callEntered {e e' : CallEntry} (h : e.Alike L e') (args : Nat) :
      Alike (.callEntered e args) (.callEntered e' args)
  | callLeft : Alike .callLeft .callLeft
  | declared (name : String) {v v' : Located} (h : v.Alike L v') :
      Alike (.declared name v) (.declared name v')
  | assigned (name : String) {v v' : Located} (h : v.Alike L v') :
      Alike (.assigned name v) (.assigned name v')
  | classCreated {c c' : ClassInfo} (h : c.Alike L c') :
      Alike (.classCreated c) (.classCreated c')
  | instantiated (cls : ClassRef) (name : String) :
      Alike (.instantiated cls name) (.instantiated cls name)
  | fieldSet (ref : InstanceRef) (field : String) {v v' : Value} (h : L.value v v') :
      Alike (.fieldSet ref field v) (.fieldSet ref field v')
  | fieldMissed (ref : InstanceRef) {c c' : ClassInfo} {field field' : Name}
      (hc : c.Alike L c') (hf : field.Alike L field') :
      Alike (.fieldMissed ref c field) (.fieldMissed ref c' field')
  | fallbackUsed (error : ArgumentError) (shown : String) :
      Alike (.fallbackUsed error shown) (.fallbackUsed error shown)
  | clockRead : Alike .clockRead .clockRead

end Relations

/-! ## bindings and tables -/

/-- Related by nothing but equality, lists are equal. -/
theorem eq_of_forall₂ {α : Type} {R : α → α → Prop} (hR : ∀ {a a'}, R a a' → a = a')
    {l l' : List α} (h : List.Forall₂ R l l') : l = l' := by
  have heq : List.Forall₂ (· = ·) l l' := h.imp fun _ _ => hR
  rwa [List.forall₂_eq_eq_eq] at heq

/-- Related by having the same image. -/
theorem forall₂_iff_map_eq {α β γ : Type} {f : α → γ} {g : β → γ} {l : List α} {l' : List β} :
    List.Forall₂ (fun a b => f a = g b) l l' ↔ l.map f = l'.map g := by
  rw [← List.forall₂_eq_eq_eq, List.forall₂_map_left_iff, List.forall₂_map_right_iff]

/-- Options that are related by equality are equal. -/
theorem eq_of_rel {α : Type} {R : α → α → Prop} (hR : ∀ {a a'}, R a a' → a = a')
    {o o' : Option α} (h : Option.Rel R o o') : o = o' := by
  cases h with
  | some h => rw [hR h]
  | none => rfl

/-- Lists that are related one by one are so without their first elements. -/
theorem forall₂_tail {α β : Type} {R : α → β → Prop} {l : List α} {l' : List β}
    (h : List.Forall₂ R l l') : List.Forall₂ R l.tail l'.tail := by
  cases h with
  | nil => exact .nil
  | cons _ hrest => exact hrest

namespace Bindings.Related

variable {α β : Type} {R : α → β → Prop} {b : Bindings α} {b' : Bindings β}

theorem empty : (∅ : Bindings α).Related R (∅ : Bindings β) := .nil

/-- A name is bound in both to related values, or in neither. -/
theorem get? (h : b.Related R b') (name : String) : Option.Rel R (b.get? name) (b'.get? name) := by
  obtain ⟨entries⟩ := b
  obtain ⟨entries'⟩ := b'
  simp only [Related, Bindings.get?] at h ⊢
  induction h with
  | nil => exact .none
  | @cons p q _ _ hpq _ ih =>
      obtain ⟨key, v⟩ := p
      obtain ⟨key', v'⟩ := q
      obtain ⟨rfl, hv⟩ := hpq
      simp only [find?]
      split
      · exact .some hv
      · exact ih

/-- Binding a name to related values keeps the rest related. -/
theorem insert (h : b.Related R b') (name : String) {v : α} {v' : β} (hv : R v v') :
    (b.insert name v).Related R (b'.insert name v') := by
  obtain ⟨entries⟩ := b
  obtain ⟨entries'⟩ := b'
  simp only [Related, Bindings.insert] at h ⊢
  induction h with
  | nil => exact .cons ⟨rfl, hv⟩ .nil
  | @cons p q _ _ hpq hrest ih =>
      obtain ⟨key, old⟩ := p
      obtain ⟨key', old'⟩ := q
      obtain ⟨rfl, hold⟩ := hpq
      simp only [place]
      split
      · exact .cons ⟨rfl, hv⟩ hrest
      · exact .cons ⟨rfl, hold⟩ ih

/-- Related bindings bind the same names. -/
theorem contains_eq (h : b.Related R b') (name : String) : b.contains name = b'.contains name := by
  have hget := h.get? name
  simp only [contains]
  generalize b.get? name = x at hget
  generalize b'.get? name = y at hget
  cases hget <;> rfl

theorem refl {R : α → α → Prop} (hR : ∀ a, R a a) (b : Bindings α) : b.Related R b := by
  refine List.forall₂_same.mpr ?_
  intro p _
  exact ⟨rfl, hR p.2⟩

/-- Related by nothing but equality, bindings are equal. -/
theorem eq {R : α → α → Prop} {b b' : Bindings α} (hR : ∀ {a a'}, R a a' → a = a')
    (h : b.Related R b') : b = b' := by
  refine congrArg Bindings.mk (eq_of_forall₂ ?_ h)
  intro p p' hpq
  exact Prod.ext hpq.1 (hR hpq.2)

end Bindings.Related

namespace TablesRelated

variable {α β : Type} {R : α → β → Prop} {t : Array α} {t' : Array β}

/-- Related tables have as many entries as each other. -/
theorem size_eq (h : TablesRelated R t t') : t.size = t'.size := by
  have hsome (i : Nat) : i < t.size ↔ i < t'.size := by
    have hi : t[i]?.isSome = t'[i]?.isSome := by
      have hrel := h i
      generalize t[i]? = x at hrel
      generalize t'[i]? = y at hrel
      cases hrel <;> rfl
    simpa using Bool.eq_iff_iff.mp hi
  have hleft := hsome t.size
  have hright := hsome t'.size
  omega

/-- Related entries can be added to related tables. -/
theorem push (h : TablesRelated R t t') {a : α} {b : β} (hab : R a b) :
    TablesRelated R (t.push a) (t'.push b) := by
  intro i
  rw [Array.getElem?_push, Array.getElem?_push, h.size_eq]
  split
  · exact .some hab
  · exact h i

/-- Related tables stay related when an entry is changed alike in both. -/
theorem modify (h : TablesRelated R t t') {f : α → α} {g : β → β}
    (hfg : ∀ {a b}, R a b → R (f a) (g b)) (i : Nat) :
    TablesRelated R (t.modify i f) (t'.modify i g) := by
  intro j
  have hj := h j
  rw [Array.getElem?_modify, Array.getElem?_modify]
  split
  · generalize t[j]? = x at hj
    generalize t'[j]? = y at hj
    cases hj with
    | some hab => exact .some (hfg hab)
    | none => exact .none
  · exact hj

/-- Entries of related tables are related, or both are missing and the defaults are. -/
theorem getD (h : TablesRelated R t t') (i : Nat) {a : α} {b : β} (hab : R a b) :
    R (t[i]?.getD a) (t'[i]?.getD b) := by
  have hi := h i
  generalize t[i]? = x at hi
  generalize t'[i]? = y at hi
  cases hi with
  | some hxy => exact hxy
  | none => exact hab

theorem refl {R : α → α → Prop} (hR : ∀ a, R a a) (t : Array α) : TablesRelated R t t := by
  intro i
  cases t[i]? with
  | none => exact .none
  | some a => exact .some (hR a)

/-- Related by nothing but equality, tables are equal. -/
theorem eq {R : α → α → Prop} {t t' : Array α} (hR : ∀ {a a'}, R a a' → a = a')
    (h : TablesRelated R t t') : t = t' := by
  refine Array.ext_getElem? fun i => ?_
  exact eq_of_rel hR (h i)

end TablesRelated

variable {L : Likeness}

/-! ## everything is like itself -/

theorem Location.Alike.refl (L : Likeness) (l : Location) : l.Alike L l := by
  cases l with
  | source r => exact .source (L.range_refl r)
  | internal producer => exact .internal producer

/-- Values, names and all that is made of them are like themselves in every likeness. -/
theorem Located.Alike.refl (L : Likeness) (v : Located) : v.Alike L v where
  value := L.value_refl v.value
  origin := .refl L v.origin

theorem Name.Alike.refl (L : Likeness) (n : Name) : n.Alike L n where
  range := L.range_refl n.range
  text := rfl

theorem ClassInfo.Alike.refl (L : Likeness) (c : ClassInfo) : c.Alike L c where
  name := rfl
  declaredAt := L.range_refl c.declaredAt

theorem CallEntry.Alike.refl (L : Likeness) (e : CallEntry) : e.Alike L e where
  fn := rfl
  site := .refl L e.site

theorem Instance.Alike.refl (L : Likeness) (i : Instance) : i.Alike L i where
  cls := rfl
  fields := .refl L.value_refl i.fields

theorem Scope.Alike.refl (L : Likeness) (s : Scope) : s.Alike L s where
  id := rfl
  vars := .refl (Located.Alike.refl L) s.vars

/-- A store is like itself in a likeness that knows its functions. -/
theorem Store.Alike.refl {s : Store} (h : s.functions = L.functions) : s.Alike L s where
  classes := .refl (ClassInfo.Alike.refl L) s.classes
  instances := .refl (Instance.Alike.refl L) s.instances
  functions := h
  functions' := h
  clockReads := rfl

/-- The world with other calls in progress. -/
def World.withCalls (w : World) (calls : List CallEntry) : World :=
  { w with context := { w.context with calls := calls } }

/-- The world with another policy for malformed calls. -/
def World.withPolicy (w : World) (policy : Policy) : World :=
  { w with context := { w.context with policy := policy } }

/-- A world is like itself with other calls and another policy, if these may differ. -/
theorem World.alike_with (w : World) (calls : List CallEntry) (policy : Policy)
    (hf : w.store.functions = L.functions) (hp : L.policy w.context.policy policy)
    (hc : L.calls = true → calls = w.context.calls) :
    w.Alike L ((w.withCalls calls).withPolicy policy) where
  context := by
    have hframes : Frames.Alike L w.context.toFrames { w.context.toFrames with calls := calls } :=
      { library := .refl (Located.Alike.refl L) _
        base := .refl (Located.Alike.refl L) _
        blocks := List.forall₂_same.mpr fun s _ => Scope.Alike.refl L s
        calls := by
          intro h
          rw [hc h]
          exact List.forall₂_same.mpr fun e _ => CallEntry.Alike.refl L e }
    exact { frames := hframes, policy := hp, counter := rfl }
  store := Store.Alike.refl hf

/-! ## where places do not differ -/

section ExactRanges

variable (hranges : ∀ {r r'}, L.range r r' → r = r')

include hranges

/-- In an exact likeness all that is alike is the same, here and in what follows. -/
theorem Location.Alike.eq {l l' : Location} (h : l.Alike L l') : l = l' := by
  cases h with
  | source h => rw [hranges h]
  | internal producer => rfl

theorem ClassInfo.Alike.eq {c c' : ClassInfo} (h : c.Alike L c') : c = c' := by
  cases c
  cases c'
  exact (ClassInfo.mk.injEq ..).mpr ⟨h.name, hranges h.declaredAt⟩

theorem Name.Alike.eq {n n' : Name} (h : n.Alike L n') : n = n' := by
  cases n
  cases n'
  exact (Name.mk.injEq ..).mpr ⟨hranges h.range, h.text⟩

theorem CallEntry.Alike.eq {e e' : CallEntry} (h : e.Alike L e') : e = e' := by
  cases e
  cases e'
  exact (CallEntry.mk.injEq ..).mpr ⟨h.fn, h.site.eq hranges⟩

/-- The advice that goes with alike errors is the same. -/
theorem InfosAlike.eq {infos infos' : List Info} (h : InfosAlike L infos infos') :
    infos = infos' := by
  obtain heq | ⟨c, c', hc, rfl, rfl⟩ := h
  · exact heq
  · rw [hc.eq hranges]

variable (hcalls : L.calls = true)

include hcalls

/-- Errors are the same only if calls in progress are compared as well. -/
theorem RuntimeError.Alike.eq {e e' : RuntimeError} (h : e.Alike L e') : e = e' := by
  cases e
  cases e'
  exact (RuntimeError.mk.injEq ..).mpr ⟨h.location.eq hranges, h.cause,
    eq_of_forall₂ (CallEntry.Alike.eq hranges) (h.calls hcalls), h.infos.eq hranges⟩

theorem Stop.Alike.eq {stop stop' : Stop} (h : stop.Alike L stop') : stop = stop' := by
  cases h with
  | error he => rw [he.eq hranges hcalls]
  | blockExit | tooDeep => rfl

end ExactRanges

/-! ## where nothing differs -/

section Exact

variable (hL : L.Exact)

include hL

theorem Located.Alike.eq {v v' : Located} (h : v.Alike L v') : v = v' := by
  cases v
  cases v'
  exact (Located.mk.injEq ..).mpr ⟨hL.value h.value, h.origin.eq hL.range⟩

theorem Instance.Alike.eq {i i' : Instance} (h : i.Alike L i') : i = i' := by
  cases i
  cases i'
  exact (Instance.mk.injEq ..).mpr ⟨h.cls, h.fields.eq hL.value⟩

theorem Scope.Alike.eq {s s' : Scope} (h : s.Alike L s') : s = s' := by
  cases s
  cases s'
  exact (Scope.mk.injEq ..).mpr ⟨h.id, h.vars.eq (Located.Alike.eq hL)⟩

/-- Alike stores are the same entry by entry. -/
theorem Store.Alike.eq {s s' : Store} (h : s.Alike L s') : s = s' := by
  cases s
  cases s'
  exact (Store.mk.injEq ..).mpr ⟨h.classes.eq (ClassInfo.Alike.eq hL.range),
    h.instances.eq (Instance.Alike.eq hL), h.functions.trans h.functions'.symm, h.clockReads⟩

/-- Alike worlds then differ in the policy and the calls in progress alone. -/
theorem World.Alike.eq_with {w w' : World} (h : w.Alike L w') :
    w' = (w.withCalls w'.context.calls).withPolicy w'.context.policy := by
  obtain ⟨⟨⟨library, base, blocks, calls⟩, policy, counter⟩, store⟩ := w
  obtain ⟨⟨⟨library', base', blocks', calls'⟩, policy', counter'⟩, store'⟩ := w'
  obtain ⟨⟨hframes, -, hcounter⟩, hstore⟩ := h
  obtain rfl : library = library' := hframes.library.eq (Located.Alike.eq hL)
  obtain rfl : base = base' := hframes.base.eq (Located.Alike.eq hL)
  obtain rfl : blocks = blocks' := eq_of_forall₂ (Scope.Alike.eq hL) hframes.blocks
  obtain rfl : counter = counter' := hcounter
  obtain rfl : store = store' := hstore.eq hL
  rfl

/-- Only the error of a failed program records the calls in progress. -/
theorem Event.Alike.eq_or_aborted {event event' : Event} (h : event.Alike L event') :
    event = event' ∨ ∃ e e', e.Alike L e' ∧ event = .programAborted e ∧
      event' = .programAborted e' := by
  cases h with
  | programAborted he => exact .inr ⟨_, _, he, rfl, rfl⟩
  | callEntered he => exact .inl (by rw [he.eq hL.range])
  | declared name hv => exact .inl (by rw [hv.eq hL])
  | assigned name hv => exact .inl (by rw [hv.eq hL])
  | classCreated hc => exact .inl (by rw [hc.eq hL.range])
  | fieldSet ref field hv => exact .inl (by rw [hL.value hv])
  | fieldMissed ref hc hf => exact .inl (by rw [hc.eq hL.range, hf.eq hL.range])
  | _ => exact .inl rfl

variable (hcalls : L.calls = true)

include hcalls

/-- If the calls in progress are compared, alike worlds differ in the policy alone. -/
theorem World.Alike.eq_withPolicy {w w' : World} (h : w.Alike L w') :
    w' = w.withPolicy w'.context.policy := by
  have hsame : w'.context.calls = w.context.calls :=
    (eq_of_forall₂ (CallEntry.Alike.eq hL.range) (h.context.frames.calls hcalls)).symm
  have heq := h.eq_with hL
  rwa [hsame] at heq

/-- Alike events are the same, since the errors in them are. -/
theorem Event.Alike.eq {event event' : Event} (h : event.Alike L event') : event = event' := by
  obtain heq | ⟨e, e', he, rfl, rfl⟩ := h.eq_or_aborted hL
  · exact heq
  · rw [he.eq hL.range hcalls]

end Exact

/-! ## reading variables -/

/-- The innermost bindings of a name are related, or it is bound nowhere. -/
theorem findSome?_rel {R : Located → Located → Prop} {scopes scopes' : List Scope}
    (h : List.Forall₂ (fun s s' => s.vars.Related R s'.vars) scopes scopes') (name : String) :
    Option.Rel R (scopes.findSome? (·.vars.get? name)) (scopes'.findSome? (·.vars.get? name)) := by
  induction h with
  | nil => exact .none
  | @cons s s' _ _ hs _ ih =>
      have hget := hs.get? name
      rw [List.findSome?_cons, List.findSome?_cons]
      generalize s.vars.get? name = x at hget
      generalize s'.vars.get? name = y at hget
      cases hget with
      | some hv => exact .some hv
      | none => exact ih

namespace Frames.Alike

variable {f f' : Frames}

/-- The scopes of alike frames are alike one by one, the base and the library included. -/
theorem scopes (h : f.Alike L f') : List.Forall₂ (Scope.Alike L) f.scopes f'.scopes := by
  refine List.rel_append h.blocks ?_
  exact .cons ⟨rfl, h.base⟩ (.cons ⟨rfl, h.library⟩ .nil)

/-- Frames that are alike look a name up to values that are alike. -/
theorem get? (h : f.Alike L f') (name : String) :
    Option.Rel (Located.Alike L) (f.get? name) (f'.get? name) := by
  rw [Frames.get?_eq_findSome?_scopes, Frames.get?_eq_findSome?_scopes]
  exact findSome?_rel (h.scopes.imp fun _ _ hs => hs.vars) name

end Frames.Alike

/-! ## changing variables -/

/-- A name is bound somewhere in both lists of scopes or in neither. -/
theorem any_contains_eq {R : Located → Located → Prop} {scopes scopes' : List Scope}
    (h : List.Forall₂ (fun s s' => s.vars.Related R s'.vars) scopes scopes') (name : String) :
    scopes.any (·.vars.contains name) = scopes'.any (·.vars.contains name) := by
  induction h with
  | nil => rfl
  | cons hs _ ih => rw [List.any_cons, List.any_cons, hs.contains_eq name, ih]

/-- A relation of scopes that binding a name respects is respected by replacing its value. -/
theorem replaceFirst_rel {S : Scope → Scope → Prop} {name : String} {v v' : Located}
    (hcontains : ∀ {s s'}, S s s' → s.vars.contains name = s'.vars.contains name)
    (hinsert : ∀ {s s'}, S s s' →
      S { s with vars := s.vars.insert name v } { s' with vars := s'.vars.insert name v' })
    {scopes scopes' : List Scope} (h : List.Forall₂ S scopes scopes') :
    List.Forall₂ S (Context.replaceFirst name v scopes) (Context.replaceFirst name v' scopes') := by
  induction h with
  | nil => exact .nil
  | cons hs hrest ih =>
      rw [Context.replaceFirst, Context.replaceFirst, hcontains hs]
      split
      · exact .cons (hinsert hs) hrest
      · exact .cons hs ih

namespace Context.Alike

variable {c c' : Context}

/-- Alike contexts number their next blocks alike. -/
theorem enterBlock (h : c.Alike L c') : c.enterBlock.Alike L c'.enterBlock where
  frames :=
    { h.frames with blocks := .cons ⟨congrArg (· + 1) h.counter, .empty⟩ h.frames.blocks }
  policy := h.policy
  counter := congrArg (· + 1) h.counter

/-- Alike contexts stay alike when both leave a block. -/
theorem leaveBlock (h : c.Alike L c') : c.leaveBlock.Alike L c'.leaveBlock where
  frames := { h.frames with blocks := forall₂_tail h.frames.blocks }
  policy := h.policy
  counter := h.counter

theorem reset (h : c.Alike L c') : c.reset.Alike L c'.reset where
  frames := { h.frames with blocks := .nil, calls := fun _ => .nil }
  policy := h.policy
  counter := h.counter

theorem enterCall (h : c.Alike L c') {e e' : CallEntry} (he : e.Alike L e') :
    (c.enterCall e).Alike L (c'.enterCall e') where
  frames := { h.frames with calls := fun hc => .cons he (h.frames.calls hc) }
  policy := h.policy
  counter := h.counter

theorem leaveCall (h : c.Alike L c') : c.leaveCall.Alike L c'.leaveCall where
  frames := { h.frames with calls := fun hc => forall₂_tail (h.frames.calls hc) }
  policy := h.policy
  counter := h.counter

/-- Alike values are declared in alike scopes. -/
theorem declare (h : c.Alike L c') (name : String) {v v' : Located} (hv : v.Alike L v') :
    (c.declare name v).Alike L (c'.declare name v') := by
  obtain ⟨⟨library, base, blocks, calls⟩, policy, counter⟩ := c
  obtain ⟨⟨library', base', blocks', calls'⟩, policy', counter'⟩ := c'
  have hblocks : List.Forall₂ (Scope.Alike L) blocks blocks' := h.frames.blocks
  cases hblocks with
  | nil => exact { h with frames := { h.frames with base := h.frames.base.insert name hv } }
  | cons hs hrest =>
      exact { h with frames :=
        { h.frames with blocks := .cons ⟨hs.id, hs.vars.insert name hv⟩ hrest } }

/-- Alike assignments come to the same. -/
theorem assign (h : c.Alike L c') (name : String) {v v' : Located} (hv : v.Alike L v') :
    (∃ d d', c.assign name v = .done d ∧ c'.assign name v' = .done d' ∧ d.Alike L d') ∨
      (c.assign name v = .libraryItem ∧ c'.assign name v' = .libraryItem) ∨
      (c.assign name v = .unbound ∧ c'.assign name v' = .unbound) := by
  have hblocks := any_contains_eq (h.frames.blocks.imp fun _ _ hs => hs.vars) name
  have hreplaced := replaceFirst_rel (fun hs : Scope.Alike L _ _ => hs.vars.contains_eq name)
    (fun hs => ⟨hs.id, hs.vars.insert name hv⟩) h.frames.blocks
  have hbase := h.frames.base.contains_eq name
  have hlibrary := h.frames.library.contains_eq name
  unfold Context.assign
  rw [← hblocks, ← hbase, ← hlibrary]
  split
  · exact .inl ⟨_, _, rfl, rfl, { h with frames := { h.frames with blocks := hreplaced } }⟩
  · split
    · exact .inl ⟨_, _, rfl, rfl,
        { h with frames := { h.frames with base := h.frames.base.insert name hv } }⟩
    · split
      · exact .inr (.inl ⟨rfl, rfl⟩)
      · exact .inr (.inr ⟨rfl, rfl⟩)

/-- Errors that are raised in alike contexts have alike calls. -/
theorem error (h : c.Alike L c') {l l' : Location} (hl : l.Alike L l') (cause : Cause)
    {infos infos' : List Info} (hi : InfosAlike L infos infos') :
    (c.error l cause infos).Alike L (c'.error l' cause infos') where
  location := hl
  cause := rfl
  calls hc := List.rel_reverse (h.frames.calls hc)
  infos := hi

end Context.Alike

/-! ## stores -/

namespace Store.Alike

variable {s s' : Store}

/-- Classes of the same reference are alike, those that do not exist included. -/
theorem cls (h : s.Alike L s') (ref : ClassRef) : (s.cls ref).Alike L (s'.cls ref) :=
  h.classes.getD ref.index (.refl L default)

/-- So are instances of the same reference. -/
theorem inst (h : s.Alike L s') (ref : InstanceRef) : (s.inst ref).Alike L (s'.inst ref) :=
  h.instances.getD ref.index (.refl L default)

/-- So are their classes. -/
theorem classOf (h : s.Alike L s') (ref : InstanceRef) :
    (s.classOf ref).Alike L (s'.classOf ref) := by
  rw [Store.classOf, Store.classOf, (h.inst ref).cls]
  exact h.cls _

/-- A field has alike values in alike stores, or is in neither. -/
theorem field? (h : s.Alike L s') (ref : InstanceRef) (name : String) :
    Option.Rel L.value (s.field? ref name) (s'.field? ref name) :=
  (h.inst ref).fields.get? name

theorem fn_eq (h : s.Alike L s') (ref : FunctionRef) : s.fn ref = s'.fn ref := by
  rw [Store.fn, Store.fn, h.functions, h.functions']

/-- Alike stores give their next class the same reference. -/
theorem nextClass_eq (h : s.Alike L s') : s.nextClass = s'.nextClass :=
  congrArg ClassRef.mk h.classes.size_eq

/-- Alike stores give their next instance the same reference. -/
theorem nextInstance_eq (h : s.Alike L s') : s.nextInstance = s'.nextInstance :=
  congrArg InstanceRef.mk h.instances.size_eq

/-- Alike classes can be added to alike stores. -/
theorem addClass (h : s.Alike L s') {c c' : ClassInfo} (hc : c.Alike L c') :
    (s.addClass c).Alike L (s'.addClass c') :=
  { h with classes := h.classes.push hc }

/-- Instances of the same class can be added to alike stores. -/
theorem addInstance (h : s.Alike L s') (cls : ClassRef) :
    (s.addInstance cls).Alike L (s'.addInstance cls) :=
  { h with instances := h.instances.push ⟨rfl, .empty⟩ }

/-- Alike values can be put into the same field. -/
theorem setField (h : s.Alike L s') (ref : InstanceRef) (name : String) {v v' : Value}
    (hv : L.value v v') : (s.setField ref name v).Alike L (s'.setField ref name v') := by
  have hset {i i' : Instance} (hi : i.Alike L i') :
      (i.setField name v).Alike L (i'.setField name v') :=
    ⟨hi.cls, hi.fields.insert name hv⟩
  exact { h with instances := h.instances.modify hset ref.index }

theorem countReading (h : s.Alike L s') : s.countReading.Alike L s'.countReading :=
  { h with clockReads := congrArg (· + 1) h.clockReads }

end Store.Alike

/-! ### texts -/

namespace Store

/-- What a value looks like from outside: a class by its name, a function by what it publishes,
an instance by the name of its class, and everything else by what it is. -/
inductive LooksLike (s s' : Store) : Value → Value → Prop where
  | null : LooksLike s s' .null .null
  | bool (b : Bool) : LooksLike s s' (.bool b) (.bool b)
  | int (i : Int64) : LooksLike s s' (.int i) (.int i)
  | float (x : Binary64) : LooksLike s s' (.float x) (.float x)
  | string (t : String) : LooksLike s s' (.string t) (.string t)
  | cls {ref ref' : ClassRef} (h : (s.cls ref).name = (s'.cls ref').name) :
      LooksLike s s' (.cls ref) (.cls ref')
  | fn {ref ref' : FunctionRef} (hname : (s.fn ref).name = (s'.fn ref').name)
      (hparams : (s.fn ref).params = (s'.fn ref').params)
      (hresult : (s.fn ref).result = (s'.fn ref').result) : LooksLike s s' (.fn ref) (.fn ref')
  | inst {ref ref' : InstanceRef} (h : (s.classOf ref).name = (s'.classOf ref').name) :
      LooksLike s s' (.inst ref) (.inst ref')

/-- Two instances have classes of one name and the same fields in order, and the values of each
field look alike. -/
structure SeenAs (s s' : Store) (ref ref' : InstanceRef) : Prop where
  cls : (s.classOf ref).name = (s'.classOf ref').name
  fields : (s.inst ref).fields.Related (s.LooksLike s') (s'.inst ref').fields

/-- Values that look alike have the same text where instances are not opened. -/
theorem LooksLike.closedText_eq {s s' : Store} {v v' : Value} (h : s.LooksLike s' v v') :
    s.closedText v = s'.closedText v' := by
  cases h with
  | cls h => rw [closedText, closedText, h]
  | fn hname hparams hresult =>
      rw [closedText, closedText, Function.text, Function.text, hname, hparams, hresult]
  | inst h => rw [closedText, closedText, h]
  | null | bool | int | float | string => rfl

/-- Instances that are seen as the same have the same text. -/
theorem SeenAs.text_eq {s s' : Store} {ref ref' : InstanceRef} (h : s.SeenAs s' ref ref') :
    s.text (.inst ref) = s'.text (.inst ref') := by
  have hfields : s.fieldTexts ref = s'.fieldTexts ref' := by
    rw [fieldTexts, fieldTexts]
    refine forall₂_iff_map_eq.mp (h.fields.imp fun p q hpq => ?_)
    rw [hpq.1, hpq.2.closedText_eq]
  rw [text_inst, text_inst, openText, openText, hfields, h.cls]

namespace Alike

variable {s s' : Store}

/-- A value looks the same in alike stores. -/
theorem looksLike (h : s.Alike L s') (v : Value) : s.LooksLike s' v v := by
  cases v with
  | cls ref => exact .cls (h.cls ref).name
  | fn ref => constructor <;> rw [h.fn_eq]
  | inst ref => exact .inst (h.classOf ref).name
  | null | bool | int | float | string => constructor

/-- So it has the same text there, where instances are not opened. -/
theorem closedText_eq (h : s.Alike L s') (v : Value) : s.closedText v = s'.closedText v :=
  (h.looksLike v).closedText_eq

/-- A value is shown alike: its text has no place in it. -/
theorem text_eq (h : s.Alike L s') (hL : ∀ {v v'}, L.value v v' → v = v') (v : Value) :
    s.text v = s'.text v := by
  cases v with
  | inst ref =>
      have hseen : s.SeenAs s' ref ref := by
        refine ⟨(h.classOf ref).name, (h.inst ref).fields.imp ?_⟩
        rintro p q ⟨hname, hvalue⟩
        exact ⟨hname, hL hvalue ▸ h.looksLike p.2⟩
      exact hseen.text_eq
  | null | bool | int | float | string | cls | fn =>
      rw [text_of_type_ne (by simp [Value.type]), text_of_type_ne (by simp [Value.type]),
        h.closedText_eq]

end Alike

end Store

/-! ## events -/

/-- Alike events lead from alike worlds to alike worlds. -/
theorem World.Alike.after {w w' : World} (h : w.Alike L w') {event event' : Event}
    (he : event.Alike L event') : (w.after event).Alike L (w'.after event') := by
  cases he with
  | programStarted | programCompleted | fieldMissed | fallbackUsed => exact h
  | programAborted => exact { h with context := h.context.reset }
  | blockEntered => exact { h with context := h.context.enterBlock }
  | blockLeft => exact { h with context := h.context.leaveBlock }
  | callEntered he => exact { h with context := h.context.enterCall he }
  | callLeft => exact { h with context := h.context.leaveCall }
  | declared name hv => exact { h with context := h.context.declare name hv }
  | assigned name hv =>
      obtain ⟨d, d', hd, hd', hdone⟩ | ⟨hd, hd'⟩ | ⟨hd, hd'⟩ := h.context.assign name hv
      · simp only [World.after, hd, hd']
        exact { h with context := hdone }
      · simp only [World.after, hd, hd']
        exact h
      · simp only [World.after, hd, hd']
        exact h
  | classCreated hc => exact { h with store := h.store.addClass hc }
  | instantiated cls => exact { h with store := h.store.addInstance cls }
  | fieldSet ref field hv => exact { h with store := h.store.setField ref field hv }
  | clockRead => exact { h with store := h.store.countReading }

/-! ### the log -/

/-- Alike events have the same line in the log, which shows neither places nor numbers. -/
theorem Event.Alike.line?_eq {event event' : Event} (h : event.Alike L event') :
    event.line? = event'.line? := by
  cases h with
  | programAborted he => simp only [line?, he.cause]
  | callEntered he => simp only [line?, he.fn]
  | fieldMissed ref hc hf => simp only [line?, hc.name, hf.text]
  | _ => rfl

/-- Alike events give the same log. -/
theorem logOf_eq {journal journal' : List Event}
    (h : List.Forall₂ (Event.Alike L) journal journal') : logOf journal = logOf journal' := by
  have hlines : journal.filterMap Event.line? = journal'.filterMap Event.line? := by
    induction h with
    | nil => rfl
    | cons he _ ih => rw [List.filterMap_cons, List.filterMap_cons, he.line?_eq, ih]
  rw [logOf, logOf, List.filterMap_reverse, List.filterMap_reverse, hlines]

end FieldScript
