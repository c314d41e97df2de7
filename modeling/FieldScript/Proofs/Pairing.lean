import Mathlib.Order.Defs.PartialOrder
import FieldScript.Proofs.FieldExistence
import FieldScript.Proofs.Likeness

/-!
# FieldScript.Proofs.Pairing

Worlds that are the same but for their references.

Programs cannot tell one reference from another but by asking whether two are the same.  A
`Pairing` says which class, instance and function of one store stands for which of another,
one to one.  Two worlds match if their variables and fields hold paired references and
everything else in them is the same (`World.Matches`).  Nothing that is told of matching
worlds differs.

Stores grow, and what is new in one stands for what is new in the other.  So that a pairing
need not change in the course of a run, it also pairs the references that do not exist yet,
position by position (`Pairing.Ahead`), and only the part of it that exists counts
(`Pairing.upTo`, `World.Abreast`).

A pairing of a store with itself in which everything stands for itself says that no
reference leads nowhere.
-/

namespace FieldScript

/-! ## pairings -/

/-- A one-to-one correspondence of the positions in two tables. -/
structure Matching where
  rel : Nat → Nat → Prop
  unique : ∀ {a b a' b'}, rel a a' → rel b b' → (a = b ↔ a' = b')

namespace Matching

/-- The part that lies in tables of these sizes. -/
def upTo (M : Matching) (n n' : Nat) : Matching where
  rel a a' := M.rel a a' ∧ a < n ∧ a' < n'
  unique h h' := M.unique h.1 h'.1

/-- What comes after tables of these sizes corresponds position by position. -/
def Ahead (M : Matching) (n n' : Nat) : Prop := ∀ k, M.rel (n + k) (n' + k)

section

variable {M : Matching} {n n' m m' : Nat}

/-- What comes after is still to come when both tables get one entry more. -/
theorem Ahead.succ (h : M.Ahead n n') (hm : m = n + 1) (hm' : m' = n' + 1) : M.Ahead m m' := by
  intro k
  rw [hm, hm', Nat.add_assoc, Nat.add_assoc, Nat.add_comm 1 k]
  exact h (k + 1)

/-- One entry more on both sides adds one pair. -/
theorem Ahead.upTo_succ (h : M.Ahead n n') (hm : m = n + 1) (hm' : m' = n' + 1) {a a' : Nat}
    (hrel : (M.upTo m m').rel a a') : (M.upTo n n').rel a a' ∨ (a = n ∧ a' = n') := by
  obtain ⟨hrel, ha, ha'⟩ := hrel
  have hnext := M.unique hrel (h 0)
  simp only [Nat.add_zero] at hnext
  by_cases hlast : a = n
  · exact .inr ⟨hlast, hnext.mp hlast⟩
  · have hlast' : a' ≠ n' := fun heq => hlast (hnext.mpr heq)
    exact .inl ⟨hrel, by omega, by omega⟩

/-- The next entries on both sides are paired with each other. -/
theorem Ahead.next (h : M.Ahead n n') : M.rel n n' := h 0

end

end Matching

/-- Which reference of one store stands for which of another, and which readings of two
clocks are to be the same. -/
structure Pairing where
  classes : Matching
  instances : Matching
  functions : Matching
  readings : Nat → Nat → Prop
  readings_succ : ∀ {n n'}, readings n n' → readings (n + 1) (n' + 1)

namespace Pairing

/-- Every pair of the first is one of the second. -/
structure Sub (Q Q' : Pairing) : Prop where
  classes : ∀ {a a'}, Q.classes.rel a a' → Q'.classes.rel a a'
  instances : ∀ {a a'}, Q.instances.rel a a' → Q'.instances.rel a a'
  functions : ∀ {a a'}, Q.functions.rel a a' → Q'.functions.rel a a'

instance : Preorder Pairing where
  le := Sub
  le_refl _ := ⟨id, id, id⟩
  le_trans _ _ _ h h' :=
    ⟨fun hr => h'.classes (h.classes hr), fun hr => h'.instances (h.instances hr),
      fun hr => h'.functions (h.functions hr)⟩

/-- The pairs that exist in these stores. -/
def upTo (P : Pairing) (s s' : Store) : Pairing where
  classes := P.classes.upTo s.classes.size s'.classes.size
  instances := P.instances.upTo s.instances.size s'.instances.size
  functions := P.functions.upTo s.functions.size s'.functions.size
  readings := P.readings
  readings_succ := P.readings_succ

/-- What does not exist yet in these stores is paired as it will come to exist. -/
structure Ahead (P : Pairing) (s s' : Store) : Prop where
  classes : P.classes.Ahead s.classes.size s'.classes.size
  instances : P.instances.Ahead s.instances.size s'.instances.size
  functions : P.functions.Ahead s.functions.size s'.functions.size
  readings : P.readings s.clockReads s'.clockReads

/-- The pairs that exist are pairs. -/
theorem upTo_le (P : Pairing) (s s' : Store) : P.upTo s s' ≤ P where
  classes h := h.1
  instances h := h.1
  functions h := h.1

end Pairing

/-- The second store has at least as many of everything. -/
structure Store.Reaches (s t : Store) : Prop where
  classes : s.classes.size ≤ t.classes.size
  instances : s.instances.size ≤ t.instances.size
  functions : s.functions.size ≤ t.functions.size

namespace Store

theorem Reaches.rfl {s : Store} : s.Reaches s where
  classes := Nat.le_refl _
  instances := Nat.le_refl _
  functions := Nat.le_refl _

theorem Reaches.trans {a b c : Store} (h : a.Reaches b) (h' : b.Reaches c) : a.Reaches c where
  classes := Nat.le_trans h.classes h'.classes
  instances := Nat.le_trans h.instances h'.instances
  functions := Nat.le_trans h.functions h'.functions

/-- No event takes anything out of a store. -/
theorem reaches_after (s : Store) (event : Event) : s.Reaches (s.after event) := by
  cases event with
  | classCreated info =>
      exact ⟨by simp [after, World.after, addClass], Nat.le_refl _, Nat.le_refl _⟩
  | instantiated cls name =>
      exact ⟨Nat.le_refl _, by simp [after, World.after, addInstance], Nat.le_refl _⟩
  | instanceSupplied cls =>
      exact ⟨Nat.le_refl _, by simp [after, World.after, addInstance], Nat.le_refl _⟩
  | functionCreated fn =>
      exact ⟨Nat.le_refl _, Nat.le_refl _, by simp [after, World.after, addFunction]⟩
  | fieldSet ref field value =>
      exact ⟨Nat.le_refl _, Nat.le_of_eq (s.size_setField ref field value).symm, Nat.le_refl _⟩
  | clockRead => exact ⟨Nat.le_refl _, Nat.le_refl _, Nat.le_refl _⟩
  | assigned name value =>
      rw [after, World.after]
      split <;> exact .rfl
  | _ => exact .rfl

end Store

/-- The larger the stores, the more pairs exist. -/
theorem Pairing.upTo_mono (P : Pairing) {s s' t t' : Store} (h : s.Reaches t) (h' : s'.Reaches t') :
    P.upTo s s' ≤ P.upTo t t' where
  classes hr := by
    obtain ⟨hrel, hlt, hlt'⟩ := hr
    exact ⟨hrel, Nat.lt_of_lt_of_le hlt h.classes, Nat.lt_of_lt_of_le hlt' h'.classes⟩
  instances hr := by
    obtain ⟨hrel, hlt, hlt'⟩ := hr
    exact ⟨hrel, Nat.lt_of_lt_of_le hlt h.instances, Nat.lt_of_lt_of_le hlt' h'.instances⟩
  functions hr := by
    obtain ⟨hrel, hlt, hlt'⟩ := hr
    exact ⟨hrel, Nat.lt_of_lt_of_le hlt h.functions, Nat.lt_of_lt_of_le hlt' h'.functions⟩

/-! ## matching parts -/

section Relations

variable (Q : Pairing)

/-- Values that are the same but for their references, which are paired. -/
inductive Value.Matches : Value → Value → Prop where
  | null : Matches .null .null
  | bool (b : Bool) : Matches (.bool b) (.bool b)
  | int (i : Int64) : Matches (.int i) (.int i)
  | float (x : Binary64) : Matches (.float x) (.float x)
  | string (s : String) : Matches (.string s) (.string s)
  | cls {r r' : ClassRef} (h : Q.classes.rel r.index r'.index) : Matches (.cls r) (.cls r')
  | inst {r r' : InstanceRef} (h : Q.instances.rel r.index r'.index) :
      Matches (.inst r) (.inst r')
  | fn {r r' : FunctionRef} (h : Q.functions.rel r.index r'.index) : Matches (.fn r) (.fn r')

structure Located.Matches (v v' : Located) : Prop where
  value : v.value.Matches Q v'.value
  origin : v.origin = v'.origin

structure Scope.Matches (s s' : Scope) : Prop where
  id : s.id = s'.id
  vars : s.vars.Related (Located.Matches Q) s'.vars

structure Frames.Matches (f f' : Frames) : Prop where
  library : f.library.Related (Located.Matches Q) f'.library
  base : f.base.Related (Located.Matches Q) f'.base
  blocks : List.Forall₂ (Scope.Matches Q) f.blocks f'.blocks
  calls : f.calls = f'.calls

structure Context.Matches (c c' : Context) : Prop where
  frames : c.toFrames.Matches Q c'.toFrames
  policy : c.policy = c'.policy
  counter : c.counter = c'.counter

structure Instance.Matches (i i' : Instance) : Prop where
  cls : Q.classes.rel i.cls.index i'.cls.index
  fields : i.fields.Related (Value.Matches Q) i'.fields

/-- What is paired exists and matches. -/
structure Store.Matches (s s' : Store) : Prop where
  classes : ∀ {r r' : ClassRef}, Q.classes.rel r.index r'.index →
    r.index < s.classes.size ∧ r'.index < s'.classes.size ∧ s.cls r = s'.cls r'
  instances : ∀ {r r' : InstanceRef}, Q.instances.rel r.index r'.index →
    r.index < s.instances.size ∧ r'.index < s'.instances.size ∧
      (s.inst r).Matches Q (s'.inst r')
  functions : ∀ {r r' : FunctionRef}, Q.functions.rel r.index r'.index →
    r.index < s.functions.size ∧ r'.index < s'.functions.size ∧ s.fn r = s'.fn r'

structure World.Matches (w w' : World) : Prop where
  context : w.context.Matches Q w'.context
  store : w.store.Matches Q w'.store

end Relations

/-- In the course of two runs: what exists matches, and what is to come is paired already. -/
structure Store.Abreast (P : Pairing) (s s' : Store) : Prop where
  store : s.Matches (P.upTo s s') s'
  ahead : P.Ahead s s'

structure World.Abreast (P : Pairing) (w w' : World) : Prop where
  context : w.context.Matches (P.upTo w.store w'.store) w'.context
  store : w.store.Abreast P w'.store

/-! ## more pairs -/

section Mono

variable {Q Q' : Pairing}

/-- A relation between the values of bindings can be weakened. -/
theorem Bindings.Related.mono {α β : Type} {R R' : α → β → Prop} {b : Bindings α}
    {b' : Bindings β} (h : b.Related R b') (himp : ∀ {a a'}, R a a' → R' a a') :
    b.Related R' b' := by
  refine List.Forall₂.imp ?_ h
  intro p p' hpq
  exact ⟨hpq.1, himp hpq.2⟩

/-- Values that match go on matching when more is paired. -/
theorem Value.Matches.mono {v v' : Value} (h : v.Matches Q v') (hle : Q ≤ Q') :
    v.Matches Q' v' := by
  cases h with
  | null => exact .null
  | bool b => exact .bool b
  | int i => exact .int i
  | float x => exact .float x
  | string s => exact .string s
  | cls h => exact .cls (hle.classes h)
  | inst h => exact .inst (hle.instances h)
  | fn h => exact .fn (hle.functions h)

theorem Located.Matches.mono {v v' : Located} (h : v.Matches Q v') (hle : Q ≤ Q') :
    v.Matches Q' v' where
  value := h.value.mono hle
  origin := h.origin

theorem Scope.Matches.mono {s s' : Scope} (h : s.Matches Q s') (hle : Q ≤ Q') :
    s.Matches Q' s' where
  id := h.id
  vars := h.vars.mono (·.mono hle)

/-- So do all the scopes of a context. -/
theorem Frames.Matches.mono {f f' : Frames} (h : f.Matches Q f') (hle : Q ≤ Q') :
    f.Matches Q' f' where
  library := h.library.mono (·.mono hle)
  base := h.base.mono (·.mono hle)
  blocks := h.blocks.imp fun _ _ hs => hs.mono hle
  calls := h.calls

theorem Context.Matches.mono {c c' : Context} (h : c.Matches Q c') (hle : Q ≤ Q') :
    c.Matches Q' c' where
  frames := h.frames.mono hle
  policy := h.policy
  counter := h.counter

theorem Instance.Matches.mono {i i' : Instance} (h : i.Matches Q i') (hle : Q ≤ Q') :
    i.Matches Q' i' where
  cls := hle.classes h.cls
  fields := h.fields.mono (·.mono hle)

end Mono

/-! ## matching values -/

section Parts

variable {Q : Pairing}

/-- Values that match have the same type. -/
theorem Value.Matches.type_eq {v v' : Value} (h : v.Matches Q v') : v.type = v'.type := by
  cases h <;> rfl

/-- Pairs are one to one, so identity is the same on both sides. -/
theorem Value.Matches.same_eq {a a' b b' : Value} (ha : a.Matches Q a') (hb : b.Matches Q b') :
    a.same b = a'.same b' := by
  cases ha <;> cases hb
  case cls.cls r r' hr q q' hq =>
    obtain ⟨i⟩ := r; obtain ⟨i'⟩ := r'; obtain ⟨j⟩ := q; obtain ⟨j'⟩ := q'
    exact Bool.eq_iff_iff.mpr (by simpa [same] using Q.classes.unique hr hq)
  case inst.inst r r' hr q q' hq =>
    obtain ⟨i⟩ := r; obtain ⟨i'⟩ := r'; obtain ⟨j⟩ := q; obtain ⟨j'⟩ := q'
    exact Bool.eq_iff_iff.mpr (by simpa [same] using Q.instances.unique hr hq)
  case fn.fn r r' hr q q' hq =>
    obtain ⟨i⟩ := r; obtain ⟨i'⟩ := r'; obtain ⟨j⟩ := q; obtain ⟨j'⟩ := q'
    exact Bool.eq_iff_iff.mpr (by simpa [same] using Q.functions.unique hr hq)
  all_goals rfl

theorem Value.Matches.located {v v' : Value} (h : v.Matches Q v') (origin : Location) :
    (Located.mk v origin).Matches Q ⟨v', origin⟩ :=
  ⟨h, rfl⟩

/-- A literal has no references, so its value matches itself. -/
theorem Literal.matches_value (Q : Pairing) (literal : Literal) :
    literal.value.Matches Q literal.value := by
  cases literal with
  | null => exact .null
  | bool b => exact .bool b
  | int i => exact .int i
  | float x => exact .float x
  | string s => exact .string s

/-! ## variables -/

/-- The scopes of matching frames match one by one, the base and the library included. -/
theorem Frames.Matches.scopes {f f' : Frames} (h : f.Matches Q f') :
    List.Forall₂ (Scope.Matches Q) f.scopes f'.scopes := by
  refine List.rel_append h.blocks ?_
  exact .cons ⟨rfl, h.base⟩ (.cons ⟨rfl, h.library⟩ .nil)

/-- So do the current scopes. -/
theorem Frames.Matches.current {f f' : Frames} (h : f.Matches Q f') :
    f.current.Matches Q f'.current := by
  have hscopes := h.scopes
  obtain ⟨outer, houter⟩ := f.scopes_eq_current_cons
  obtain ⟨outer', houter'⟩ := f'.scopes_eq_current_cons
  rw [houter, houter'] at hscopes
  cases hscopes with
  | cons hs _ => exact hs

/-- A name is found on both sides, with matching values, or on neither. -/
theorem Frames.Matches.get? {f f' : Frames} (h : f.Matches Q f') (name : String) :
    Option.Rel (Located.Matches Q) (f.get? name) (f'.get? name) := by
  rw [Frames.get?_eq_findSome?_scopes, Frames.get?_eq_findSome?_scopes]
  exact findSome?_rel (h.scopes.imp fun _ _ hs => hs.vars) name

namespace Context.Matches

variable {c c' : Context}

theorem enterBlock (h : c.Matches Q c') : c.enterBlock.Matches Q c'.enterBlock where
  frames :=
    { h.frames with blocks := .cons ⟨congrArg (· + 1) h.counter, .empty⟩ h.frames.blocks }
  policy := h.policy
  counter := congrArg (· + 1) h.counter

theorem leaveBlock (h : c.Matches Q c') : c.leaveBlock.Matches Q c'.leaveBlock where
  frames := { h.frames with blocks := forall₂_tail h.frames.blocks }
  policy := h.policy
  counter := h.counter

theorem reset (h : c.Matches Q c') : c.reset.Matches Q c'.reset where
  frames := { h.frames with blocks := .nil, calls := rfl }
  policy := h.policy
  counter := h.counter

theorem enterCall (h : c.Matches Q c') (entry : CallEntry) :
    (c.enterCall entry).Matches Q (c'.enterCall entry) where
  frames := { h.frames with calls := congrArg (entry :: ·) h.frames.calls }
  policy := h.policy
  counter := h.counter

theorem leaveCall (h : c.Matches Q c') : c.leaveCall.Matches Q c'.leaveCall where
  frames := { h.frames with calls := congrArg List.tail h.frames.calls }
  policy := h.policy
  counter := h.counter

/-- Matching values are declared in matching scopes. -/
theorem declare (h : c.Matches Q c') (name : String) {v v' : Located} (hv : v.Matches Q v') :
    (c.declare name v).Matches Q (c'.declare name v') := by
  obtain ⟨⟨library, base, blocks, calls⟩, policy, counter⟩ := c
  obtain ⟨⟨library', base', blocks', calls'⟩, policy', counter'⟩ := c'
  have hblocks : List.Forall₂ (Scope.Matches Q) blocks blocks' := h.frames.blocks
  cases hblocks with
  | nil => exact { h with frames := { h.frames with base := h.frames.base.insert name hv } }
  | cons hs hrest =>
      exact { h with frames :=
        { h.frames with blocks := .cons ⟨hs.id, hs.vars.insert name hv⟩ hrest } }

/-- Matching assignments come to the same. -/
theorem assign (h : c.Matches Q c') (name : String) {v v' : Located} (hv : v.Matches Q v') :
    (∃ d d', c.assign name v = .done d ∧ c'.assign name v' = .done d' ∧ d.Matches Q d') ∨
      (c.assign name v = .libraryItem ∧ c'.assign name v' = .libraryItem) ∨
      (c.assign name v = .unbound ∧ c'.assign name v' = .unbound) := by
  have hblocks := any_contains_eq (h.frames.blocks.imp fun _ _ hs => hs.vars) name
  have hreplaced := replaceFirst_rel (fun hs : Scope.Matches Q _ _ => hs.vars.contains_eq name)
    (fun hs => ⟨hs.id, hs.vars.insert name hv⟩) h.frames.blocks
  have hbase := h.frames.base.contains_eq name
  have hlibrary := h.frames.library.contains_eq name
  unfold Context.assign
  rw [← hblocks, ← hbase, ← hlibrary]
  split
  · exact .inl ⟨_, _, rfl, rfl, { h with frames := { h.frames with blocks := hreplaced } }⟩
  · split
    · exact .inl ⟨_, _, rfl, rfl,
        { h with frames := { h.frames with base := h.frames.base.insert name hv } }⟩
    · split
      · exact .inr (.inl ⟨rfl, rfl⟩)
      · exact .inr (.inr ⟨rfl, rfl⟩)

/-- Errors do not refer to anything, so they are the same. -/
theorem error_eq (h : c.Matches Q c') (location : Location) (cause : Cause) (infos : List Info) :
    c.error location cause infos = c'.error location cause infos := by
  rw [Context.error, Context.error, Frames.history, Frames.history, h.frames.calls]

end Context.Matches

/-! ## stores -/

namespace Store.Matches

variable {s s' : Store}

/-- Paired classes have the same description. -/
theorem cls_eq (h : s.Matches Q s') {r r' : ClassRef} (hr : Q.classes.rel r.index r'.index) :
    s.cls r = s'.cls r' :=
  (h.classes hr).2.2

/-- Paired instances match, field by field. -/
theorem inst (h : s.Matches Q s') {r r' : InstanceRef}
    (hr : Q.instances.rel r.index r'.index) : (s.inst r).Matches Q (s'.inst r') :=
  (h.instances hr).2.2

/-- Paired functions are the same. -/
theorem fn_eq (h : s.Matches Q s') {r r' : FunctionRef}
    (hr : Q.functions.rel r.index r'.index) : s.fn r = s'.fn r' :=
  (h.functions hr).2.2

/-- Paired instances have classes of the same description. -/
theorem classOf_eq (h : s.Matches Q s') {r r' : InstanceRef}
    (hr : Q.instances.rel r.index r'.index) : s.classOf r = s'.classOf r' :=
  h.cls_eq (h.inst hr).cls

/-- A field of paired instances has matching values, or is absent from both. -/
theorem field? (h : s.Matches Q s') {r r' : InstanceRef}
    (hr : Q.instances.rel r.index r'.index) (name : String) :
    Option.Rel (Value.Matches Q) (s.field? r name) (s'.field? r' name) :=
  (h.inst hr).fields.get? name

/-! ### what is told of values -/

/-- Matching values look alike from outside. -/
theorem looksLike (h : s.Matches Q s') {v v' : Value} (hv : v.Matches Q v') :
    s.LooksLike s' v v' := by
  cases hv with
  | cls hr => exact .cls (by rw [h.cls_eq hr])
  | inst hr => exact .inst (by rw [h.classOf_eq hr])
  | fn hr => constructor <;> rw [h.fn_eq hr]
  | null | bool | int | float | string => constructor

/-- Names with what is told of their values, if it is the same of matching values. -/
theorem map_entries_eq {α β : Type} {R : α → α → Prop} {b b' : Bindings α}
    (hb : b.Related R b') {f f' : α → β} (hf : ∀ {v v'}, R v v' → f v = f' v') :
    b.entries.map (fun p => (p.1, f p.2)) = b'.entries.map (fun p => (p.1, f' p.2)) := by
  refine forall₂_iff_map_eq.mp (List.Forall₂.imp ?_ hb)
  intro p p' hpq
  exact Prod.ext hpq.1 (hf hpq.2)

/-- Matching values have the same text. -/
theorem text_eq (h : s.Matches Q s') {v v' : Value} (hv : v.Matches Q v') :
    s.text v = s'.text v' := by
  cases hv with
  | @inst r r' hr =>
      have hseen : s.SeenAs s' r r' :=
        ⟨by rw [h.classOf_eq hr],
          (h.inst hr).fields.imp fun _ _ hpq => ⟨hpq.1, h.looksLike hpq.2⟩⟩
      exact hseen.text_eq
  | null | bool | int | float | string => rfl
  | cls hr => exact (h.looksLike (.cls hr)).closedText_eq
  | fn hr => exact (h.looksLike (.fn hr)).closedText_eq

/-- Matching values are told the same way in brief. -/
theorem brief_eq (h : s.Matches Q s') {v v' : Value} (hv : v.Matches Q v') :
    s.brief v = s'.brief v' := by
  rw [brief, brief, hv.type_eq, h.text_eq hv]

/-- Matching values are described the same way. -/
theorem describe_eq (h : s.Matches Q s') {v v' : Value} (hv : v.Matches Q v') :
    s.describe v = s'.describe v' := by
  rw [describe, describe, h.brief_eq hv]
  congr 1
  cases hv with
  | null | bool | int | float | string | fn => rfl
  | cls hr => rw [detail, detail, h.cls_eq hr]
  | inst hr =>
      rw [detail, detail, h.classOf_eq hr, briefs, briefs,
        map_entries_eq (h.inst hr).fields h.brief_eq]

end Store.Matches

/-- What can be seen of matching contexts is the same. -/
theorem World.Matches.snapshot_eq {w w' : World} (h : w.Matches Q w') :
    w.snapshot = w'.snapshot := by
  have hcurrent := h.context.frames.current
  have hbrief {v v' : Located} (hv : v.Matches Q v') :
      (w.store.brief v.value, v.origin) = (w'.store.brief v'.value, v'.origin) :=
    Prod.ext (h.store.brief_eq hv.value) hv.origin
  have hvars := Store.Matches.map_entries_eq hcurrent.vars hbrief
  rw [World.snapshot, World.snapshot, hcurrent.id, hvars, Frames.history, Frames.history,
    h.context.frames.calls]

end Parts

/-! ## events -/

/-- Events that are the same but for their references. -/
inductive Event.Matches (Q : Pairing) : Event → Event → Prop where
  | libraryBuilt (n : Nat) : Matches Q (.libraryBuilt n) (.libraryBuilt n)
  | programStarted (n : Nat) : Matches Q (.programStarted n) (.programStarted n)
  | programCompleted : Matches Q .programCompleted .programCompleted
  | programAborted (e : RuntimeError) : Matches Q (.programAborted e) (.programAborted e)
  | blockEntered : Matches Q .blockEntered .blockEntered
  | blockLeft : Matches Q .blockLeft .blockLeft
  | callEntered (entry : CallEntry) (args : Nat) :
      Matches Q (.callEntered entry args) (.callEntered entry args)
  | callLeft : Matches Q .callLeft .callLeft
  | declared (name : String) {v v' : Located} (h : v.Matches Q v') :
      Matches Q (.declared name v) (.declared name v')
  | assigned (name : String) {v v' : Located} (h : v.Matches Q v') :
      Matches Q (.assigned name v) (.assigned name v')
  | classCreated (info : ClassInfo) : Matches Q (.classCreated info) (.classCreated info)
  | instantiated {r r' : ClassRef} (h : Q.classes.rel r.index r'.index) (name : String) :
      Matches Q (.instantiated r name) (.instantiated r' name)
  | instanceSupplied {r r' : ClassRef} (h : Q.classes.rel r.index r'.index) :
      Matches Q (.instanceSupplied r) (.instanceSupplied r')
  | functionCreated (fn : Function) : Matches Q (.functionCreated fn) (.functionCreated fn)
  | fieldSet {r r' : InstanceRef} (h : Q.instances.rel r.index r'.index) (field : String)
      {v v' : Value} (hv : v.Matches Q v') : Matches Q (.fieldSet r field v) (.fieldSet r' field v')
  | fieldMissed {r r' : InstanceRef} (h : Q.instances.rel r.index r'.index) (cls : ClassInfo)
      (field : Name) : Matches Q (.fieldMissed r cls field) (.fieldMissed r' cls field)
  | fallbackUsed (error : ArgumentError) (shown : String) :
      Matches Q (.fallbackUsed error shown) (.fallbackUsed error shown)
  | clockRead : Matches Q .clockRead .clockRead

/-- Events that match go on matching when more is paired. -/
theorem Event.Matches.mono {Q Q' : Pairing} {event event' : Event} (h : event.Matches Q event')
    (hle : Q ≤ Q') : event.Matches Q' event' := by
  cases h with
  | libraryBuilt n => exact .libraryBuilt n
  | programStarted n => exact .programStarted n
  | programCompleted => exact .programCompleted
  | programAborted e => exact .programAborted e
  | blockEntered => exact .blockEntered
  | blockLeft => exact .blockLeft
  | callEntered entry args => exact .callEntered entry args
  | callLeft => exact .callLeft
  | declared name h => exact .declared name (h.mono hle)
  | assigned name h => exact .assigned name (h.mono hle)
  | classCreated info => exact .classCreated info
  | instantiated h name => exact .instantiated (hle.classes h) name
  | instanceSupplied h => exact .instanceSupplied (hle.classes h)
  | functionCreated fn => exact .functionCreated fn
  | fieldSet h field hv => exact .fieldSet (hle.instances h) field (hv.mono hle)
  | fieldMissed h cls field => exact .fieldMissed (hle.instances h) cls field
  | fallbackUsed error shown => exact .fallbackUsed error shown
  | clockRead => exact .clockRead

/-- Events that match give the same line of the log. -/
theorem Event.Matches.line?_eq {Q : Pairing} {event event' : Event} (h : event.Matches Q event') :
    event.line? = event'.line? := by
  cases h <;> rfl

namespace Store.Abreast

variable {P : Pairing} {s s' : Store}

/-- A class that is added on both sides becomes a pair. -/
theorem addClass (h : s.Abreast P s') (info : ClassInfo) :
    (s.addClass info).Abreast P (s'.addClass info) where
  store :=
    { classes := fun {r r'} hr => by
        obtain hold | ⟨hnew, hnew'⟩ :=
          h.ahead.classes.upTo_succ (Array.size_push _) (Array.size_push _) hr
        · obtain ⟨hlt, hlt', heq⟩ := h.store.classes hold
          obtain ⟨hlt, hkept⟩ := (s.grows_addClass info).classes r hlt
          obtain ⟨hlt', hkept'⟩ := (s'.grows_addClass info).classes r' hlt'
          exact ⟨hlt, hlt', by rw [hkept, hkept', heq]⟩
        · obtain rfl : r = s.nextClass := congrArg ClassRef.mk hnew
          obtain rfl : r' = s'.nextClass := congrArg ClassRef.mk hnew'
          exact ⟨hr.2.1, hr.2.2, by rw [cls_addClass_next, cls_addClass_next]⟩
      instances := fun hr => by
        obtain ⟨hlt, hlt', hinst⟩ := h.store.instances hr
        exact ⟨hlt, hlt', hinst.mono (P.upTo_mono (s.reaches_after (.classCreated info))
          (s'.reaches_after (.classCreated info)))⟩
      functions := h.store.functions }
  ahead :=
    { h.ahead with classes := h.ahead.classes.succ (Array.size_push _) (Array.size_push _) }

/-- A function that is added on both sides becomes a pair. -/
theorem addFunction (h : s.Abreast P s') (fn : Function) :
    (s.addFunction fn).Abreast P (s'.addFunction fn) where
  store :=
    { classes := h.store.classes
      instances := fun hr => by
        obtain ⟨hlt, hlt', hinst⟩ := h.store.instances hr
        exact ⟨hlt, hlt', hinst.mono (P.upTo_mono (s.reaches_after (.functionCreated fn))
          (s'.reaches_after (.functionCreated fn)))⟩
      functions := fun {r r'} hr => by
        obtain hold | ⟨hnew, hnew'⟩ :=
          h.ahead.functions.upTo_succ (Array.size_push _) (Array.size_push _) hr
        · obtain ⟨hlt, hlt', heq⟩ := h.store.functions hold
          refine ⟨hr.2.1, hr.2.2, ?_⟩
          simpa [Store.fn, Store.addFunction, Array.getElem?_push, Nat.ne_of_lt hlt,
            Nat.ne_of_lt hlt'] using heq
        · obtain rfl : r = s.nextFunction := congrArg FunctionRef.mk hnew
          obtain rfl : r' = s'.nextFunction := congrArg FunctionRef.mk hnew'
          exact ⟨hr.2.1, hr.2.2, by rw [fn_addFunction_next, fn_addFunction_next]⟩ }
  ahead :=
    { h.ahead with functions := h.ahead.functions.succ (Array.size_push _) (Array.size_push _) }

/-- Instances of paired classes that are added on both sides become a pair. -/
theorem addInstance (h : s.Abreast P s') {cls cls' : ClassRef}
    (hcls : (P.upTo s s').classes.rel cls.index cls'.index) :
    (s.addInstance cls).Abreast P (s'.addInstance cls') where
  store :=
    { classes := h.store.classes
      instances := fun {r r'} hr => by
        refine ⟨hr.2.1, hr.2.2, ?_⟩
        obtain hold | ⟨hnew, hnew'⟩ :=
          h.ahead.instances.upTo_succ (Array.size_push _) (Array.size_push _) hr
        · obtain ⟨hlt, hlt', hinst⟩ := h.store.instances hold
          rw [s.inst_addInstance cls hlt, s'.inst_addInstance cls' hlt']
          exact hinst.mono (P.upTo_mono (s.reaches_after (.instanceSupplied cls))
            (s'.reaches_after (.instanceSupplied cls')))
        · obtain rfl : r = s.nextInstance := congrArg InstanceRef.mk hnew
          obtain rfl : r' = s'.nextInstance := congrArg InstanceRef.mk hnew'
          rw [inst_addInstance_next, inst_addInstance_next]
          exact ⟨hcls, .empty⟩
      functions := h.store.functions }
  ahead :=
    { h.ahead with instances := h.ahead.instances.succ (Array.size_push _) (Array.size_push _) }

/-- Setting a field of paired instances to matching values keeps them matching. -/
theorem setField (h : s.Abreast P s') {ref ref' : InstanceRef}
    (href : (P.upTo s s').instances.rel ref.index ref'.index) (name : String) {v v' : Value}
    (hv : v.Matches (P.upTo s s') v') :
    (s.setField ref name v).Abreast P (s'.setField ref' name v') := by
  have hsize := s.size_setField ref name v
  have hsize' := s'.size_setField ref' name v'
  have hsame : P.upTo (s.setField ref name v) (s'.setField ref' name v') = P.upTo s s' := by
    simp only [Pairing.upTo, hsize, hsize']
    rfl
  refine ⟨?_, ⟨h.ahead.classes, by rw [hsize, hsize']; exact h.ahead.instances,
    h.ahead.functions, h.ahead.readings⟩⟩
  rw [hsame]
  refine ⟨h.store.classes, fun {r r'} hr => ?_, h.store.functions⟩
  obtain ⟨hlt, hlt', hinst⟩ := h.store.instances hr
  refine ⟨by rwa [hsize], by rwa [hsize'], ?_⟩
  -- the instance whose field is set is the same one on both sides
  have hiff : r = ref ↔ r' = ref' := by
    obtain ⟨i⟩ := r; obtain ⟨i'⟩ := r'; obtain ⟨j⟩ := ref; obtain ⟨j'⟩ := ref'
    simpa using (P.upTo s s').instances.unique hr href
  rw [inst_setField, inst_setField]
  by_cases heq : r = ref
  · have heq' := hiff.mp heq
    subst heq heq'
    rw [if_pos ⟨rfl, hlt⟩, if_pos ⟨rfl, hlt'⟩]
    exact ⟨hinst.cls, hinst.fields.insert name hv⟩
  · rw [if_neg (fun h => heq h.1), if_neg (fun h => heq (hiff.mpr h.1))]
    exact hinst

theorem countReading (h : s.Abreast P s') : s.countReading.Abreast P s'.countReading where
  store := ⟨h.store.classes, h.store.instances, h.store.functions⟩
  ahead := ⟨h.ahead.classes, h.ahead.instances, h.ahead.functions,
    P.readings_succ h.ahead.readings⟩

end Store.Abreast

namespace World.Abreast

variable {P : Pairing} {w w' : World}

theorem worlds (h : w.Abreast P w') : w.Matches (P.upTo w.store w'.store) w' where
  context := h.context
  store := h.store.store

/-- Contexts stay as they are while the stores grow. -/
theorem withStore (h : w.Abreast P w') {s s' : Store} (hs : s.Abreast P s')
    (hreach : w.store.Reaches s) (hreach' : w'.store.Reaches s') :
    (World.mk w.context s).Abreast P ⟨w'.context, s'⟩ where
  context := h.context.mono (P.upTo_mono hreach hreach')
  store := hs

/-- Events that match lead abreast. -/
theorem after (h : w.Abreast P w') {event event' : Event}
    (he : event.Matches (P.upTo w.store w'.store) event') :
    (w.after event).Abreast P (w'.after event') := by
  have hreach : w.store.Reaches (w.after event).store := by
    rw [World.after_eq]
    exact w.store.reaches_after event
  have hreach' : w'.store.Reaches (w'.after event').store := by
    rw [World.after_eq]
    exact w'.store.reaches_after event'
  cases he with
  | libraryBuilt | programStarted | programCompleted | fieldMissed | fallbackUsed => exact h
  | programAborted => exact { h with context := h.context.reset }
  | blockEntered => exact { h with context := h.context.enterBlock }
  | blockLeft => exact { h with context := h.context.leaveBlock }
  | callEntered entry => exact { h with context := h.context.enterCall entry }
  | callLeft => exact { h with context := h.context.leaveCall }
  | declared name hv => exact { h with context := h.context.declare name hv }
  | assigned name hv =>
      obtain ⟨d, d', hd, hd', hdone⟩ | ⟨hd, hd'⟩ | ⟨hd, hd'⟩ := h.context.assign name hv
      · simp only [World.after, hd, hd']
        exact { h with context := hdone }
      · simp only [World.after, hd, hd']
        exact h
      · simp only [World.after, hd, hd']
        exact h
  | classCreated info => exact h.withStore (h.store.addClass info) hreach hreach'
  | instantiated hcls => exact h.withStore (h.store.addInstance hcls) hreach hreach'
  | instanceSupplied hcls => exact h.withStore (h.store.addInstance hcls) hreach hreach'
  | functionCreated fn => exact h.withStore (h.store.addFunction fn) hreach hreach'
  | fieldSet href field hv => exact h.withStore (h.store.setField href field hv) hreach hreach'
  | clockRead => exact h.withStore h.store.countReading hreach hreach'

end World.Abreast

end FieldScript
