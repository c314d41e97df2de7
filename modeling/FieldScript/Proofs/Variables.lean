import FieldScript.Proofs.Purity
import FieldScript.Proofs.ScopeDiscipline
import FieldScript.Proofs.ScopeTable

/-!
# FieldScript.Proofs.Variables

What declaring and assigning do to variables.

A look-up ends at the innermost scope that binds the name (`Frames.get?_eq_binding?`), and an
assignment replaces the very binding that the look-up found, unless that one is the library's
(`Context.Assigned.sets`, `Context.assignVariable_cases`).  A declaration binds the name in the
current scope.  Both are cases of one change: a name is bound in the scope at one level, and every
other binding of every scope stays as it is (`Context.Sets`).
-/

namespace FieldScript

/-! ## where a look-up ends -/

namespace Frames

/-- The binding that a name has in the first of the scopes that binds it. -/
theorem findSome?_eq_bind_findIdx (name : String) (scopes : List Scope) :
    scopes.findSome? (·.vars.get? name) =
      scopes[scopes.findIdx (·.vars.contains name)]?.bind (·.vars.get? name) := by
  induction scopes with
  | nil => rfl
  | cons scope outer ih =>
      rw [List.findSome?_cons, List.findIdx_cons, Bindings.contains]
      cases h : scope.vars.get? name <;> simp [h, ih]

theorem get?_eq_binding? (f : Frames) (name : String) :
    f.get? name = f.binding? (f.level name) name := by
  rw [get?_eq_findSome?_scopes, findSome?_eq_bind_findIdx, binding?, level]

theorem isSome_binding?_eq (f : Frames) (level : Nat) (name : String) :
    (f.binding? level name).isSome = (f.scopes[level]?.any (·.vars.contains name)) := by
  rw [binding?]
  cases f.scopes[level]? <;> rfl

/-- No scope further in binds the name. -/
theorem binding?_eq_none_of_lt {f : Frames} {level : Nat} {name : String}
    (h : level < f.level name) : f.binding? level name = none := by
  have hlt : level < f.scopes.length := Nat.lt_of_lt_of_le h List.findIdx_le_length
  have hunbound := List.not_of_lt_findIdx h
  rw [← Option.isNone_iff_eq_none, ← Option.not_isSome, isSome_binding?_eq,
    List.getElem?_eq_getElem hlt]
  simpa using hunbound

/-- The level of a name is that of its innermost binding. -/
theorem level_eq {f : Frames} {level : Nat} {name : String}
    (h : (f.binding? level name).isSome = true)
    (hinner : ∀ inner < level, f.binding? inner name = none) : f.level name = level := by
  obtain hlt | heq | hgt := Nat.lt_trichotomy (f.level name) level
  · have hnone : f.get? name = none := by rw [get?_eq_binding?, hinner _ hlt]
    rw [get?_eq_findSome?_scopes, List.findSome?_eq_none_iff] at hnone
    rw [isSome_binding?_eq] at h
    cases hs : f.scopes[level]? with
    | none => simp [hs] at h
    | some scope =>
        have hbound : (scope.vars.get? name).isSome = true := by
          simpa [hs, Bindings.contains] using h
        simp [hnone scope (List.mem_of_getElem? hs)] at hbound
  · exact heq
  · simp [binding?_eq_none_of_lt hgt] at h

end Frames

namespace Context

/-! ## one binding is set -/

/-- The name is bound to the value in the scope at this level: in the place it has there, or
else after all others.  Every other binding of every scope is as it was, and so are the ids of
the scopes, the calls in progress, the policy and the counter. -/
structure Sets (level : Nat) (name : String) (value : Located) (c c' : Context) : Prop
    extends c.BindsOne level name value c' where
  ids : c'.scopes.map (·.id) = c.scopes.map (·.id)
  names : c'.names = c.names.modify level fun ns => if name ∈ ns then ns else ns ++ [name]
  binding? : ∀ l other,
    c'.binding? l other = if l = level ∧ other = name then some value else c.binding? l other

theorem BindsOne.sets {level : Nat} {name : String} {value : Located} {c c' : Context}
    (h : c.BindsOne level name value c') (hlt : level < c.scopes.length) :
    c.Sets level name value c' where
  toBindsOne := h
  ids := by
    rw [h.scopes]
    apply List.ext_getElem?
    intro l
    rw [List.getElem?_map, List.getElem?_map, List.getElem?_modify]
    cases c.scopes[l]? with
    | none => rfl
    | some scope => by_cases hl : level = l <;> simp [hl, Scope.bind]
  names := by
    rw [Frames.names, Frames.names, h.scopes]
    apply List.ext_getElem?
    intro l
    rw [List.getElem?_map, List.getElem?_modify, List.getElem?_modify, List.getElem?_map]
    cases c.scopes[l]? with
    | none => rfl
    | some scope => by_cases hl : level = l <;> simp [hl, Scope.bind, Bindings.names_insert]
  binding? l other := by
    rw [Frames.binding?, Frames.binding?, h.scopes, List.getElem?_modify]
    by_cases hl : level = l
    · subst hl
      rw [List.getElem?_eq_getElem hlt]
      by_cases ho : other = name <;> simp [ho, Scope.bind]
    · have hne : ¬ l = level := Ne.symm hl
      simp [hl, hne]

/-- What is set is found if no scope further in binds the name. -/
theorem Sets.get? {level : Nat} {name : String} {value : Located} {c c' : Context}
    (h : c.Sets level name value c') (hle : level ≤ c.level name) : c'.get? name = some value := by
  have hset : c'.binding? level name = some value := by simp [h.binding?]
  have hinner (inner : Nat) (hlt : inner < level) : c'.binding? inner name = none := by
    rw [h.binding?, if_neg fun heq => Nat.ne_of_lt hlt heq.1]
    exact Frames.binding?_eq_none_of_lt (Nat.lt_of_lt_of_le hlt hle)
  rw [Frames.get?_eq_binding?, Frames.level_eq (by simp [hset]) hinner, hset]

theorem sets_declare (c : Context) (name : String) (value : Located) :
    c.Sets 0 name value (c.declare name value) := by
  have hlt : 0 < c.scopes.length := by
    rw [scopes_eq_cons]
    exact Nat.zero_lt_succ _
  exact (c.bindsOne_declare name value).sets hlt

/-! ## assignments -/

/-- The level of a name that can be assigned to is that of a scope of its own. -/
theorem level_lt_own {c : Context} {name : String} (h : c.own.any (·.vars.contains name) = true) :
    c.level name < c.own.length := by
  rw [Frames.level, Frames.scopes_eq_own_append, List.findIdx_append, if_pos]
  · exact List.findIdx_lt_length.mpr (List.any_eq_true.mp h)
  · exact List.findIdx_lt_length.mpr (List.any_eq_true.mp h)

theorem length_scopes (c : Context) : c.scopes.length = c.own.length + 1 := by
  simp [Frames.scopes_eq_own_append]

/-- An assignment sets the binding that a look-up finds, and binds no name anew. -/
theorem Assigned.sets {c c' : Context} {name : String} {value : Located}
    (h : c.Assigned name value c') :
    c.Sets (c.level name) name value c' ∧ c'.names = c.names := by
  have hlt : c.level name < c.own.length := level_lt_own h.bound
  have hscopes : c.level name < c.scopes.length := by
    rw [length_scopes]
    omega
  refine ⟨h.bindsOne.sets hscopes, ?_⟩
  rw [Frames.names, Frames.names, h.scopes, names_replaceFirst]

/-- Why a name cannot be assigned to, and the error that tells. -/
inductive Refuses (c : Context) (name : Name) : RuntimeError → Prop where
  /-- Only the library binds the name. -/
  | libraryItem {scope : Scope} (hscope : c.scopes[c.level name.text]? = some scope)
      (hid : scope.id = Scope.libraryId)
      (honly : ∀ level, (c.binding? level name.text).isSome = true → level = c.level name.text) :
      Refuses c name (c.error (.source name.range) (.libraryItemAssignment name.text)
        [⟨.tip, "declare a new variable instead to shadow the native item"⟩])
  /-- No scope binds the name. -/
  | unbound (hnone : ∀ level, c.binding? level name.text = none) :
      Refuses c name (c.error (.source name.range) (.undefinedVariable name.text) [])

/-- The scopes that can be assigned to come first, and the library comes last. -/
theorem getElem?_scopes (c : Context) (level : Nat) :
    c.scopes[level]? =
      if level < c.own.length then c.own[level]?
      else if level = c.own.length then some ⟨Scope.libraryId, c.library⟩ else none := by
  rw [Frames.scopes_eq_own_append, List.getElem?_append]
  split
  · rfl
  · split
    · next heq => simp [heq]
    · rw [List.getElem?_eq_none]
      simp only [List.length_singleton]
      omega

/-- A name that no scope of its own binds has no binding but the library's. -/
theorem binding?_of_unowned {c : Context} {name : String}
    (h : ∀ scope ∈ c.own, scope.vars.contains name = false) (level : Nat) :
    c.binding? level name = if level = c.own.length then c.library.get? name else none := by
  rw [Frames.binding?, getElem?_scopes]
  split
  · next hlt =>
      have hunbound : (c.own[level].vars.get? name).isSome = false := h _ (List.getElem_mem hlt)
      rw [if_neg (Nat.ne_of_lt hlt), List.getElem?_eq_getElem hlt]
      simpa using hunbound
  · split <;> rfl

theorem refuses_of_assign_ne {m : Machine} {name : Name} {value : Located}
    (h : ∀ c', m.world.context.assign name.text value ≠ .done c') :
    ∃ e, m.world.context.Refuses name e ∧ assignVariable name value m = .error (.error e) m := by
  obtain ⟨hown, hassign⟩ := assign_refused h
  have hbinding := binding?_of_unowned hown
  cases hlibrary : m.world.context.library.contains name.text with
  | true =>
      rw [hlibrary] at hassign
      have hlevel : m.world.context.level name.text = m.world.context.own.length := by
        apply Frames.level_eq
        · simpa [hbinding, Bindings.contains] using hlibrary
        · intro inner hlt
          rw [hbinding, if_neg (Nat.ne_of_lt hlt)]
      have hrefuses := @Refuses.libraryItem m.world.context name
        ⟨Scope.libraryId, m.world.context.library⟩ (by simp [hlevel, getElem?_scopes]) rfl
        fun level hbound => by
          rw [hlevel]
          by_contra hne
          simp [hbinding, hne] at hbound
      exact ⟨_, hrefuses, by simp [assignVariable, Exec.bind_run, hassign]⟩
  | false =>
      rw [hlibrary] at hassign
      have hunbound : m.world.context.library.get? name.text = none := by
        simpa [Bindings.contains] using hlibrary
      have hrefuses : m.world.context.Refuses name _ :=
        .unbound fun level => by simp [hbinding, hunbound]
      exact ⟨_, hrefuses, by simp [assignVariable, Exec.bind_run, hassign]⟩

/-- What an assignment can do. -/
theorem assignVariable_cases (name : Name) (value : Located) (m : Machine) :
    (∃ c', m.world.context.assign name.text value = .done c' ∧
        ∃ m', assignVariable name value m = .ok () m' ∧ m'.world = ⟨c', m.world.store⟩) ∨
      (∀ c', m.world.context.assign name.text value ≠ .done c') ∧
        ∃ e, m.world.context.Refuses name e ∧
          assignVariable name value m = .error (.error e) m := by
  by_cases h : ∃ c', m.world.context.assign name.text value = .done c'
  · obtain ⟨c', hdone⟩ := h
    refine .inl ⟨c', hdone, m.after (.assigned name.text value), ?_, ?_⟩
    · simp [assignVariable, Exec.bind_run, hdone]
    · simp [Machine.after, World.after, hdone]
  · exact .inr ⟨not_exists.mp h, refuses_of_assign_ne (not_exists.mp h)⟩

/-! ## ids -/

/-- Only the library's scope has the library's id. -/
theorem Descends.id_ne_libraryId {c : Context} (h : c.Descends) {scope : Scope}
    (hs : scope ∈ c.own) : scope.id ≠ Scope.libraryId := by
  obtain hs | hs := List.mem_append.mp hs
  · have hlt := h.baseId_lt hs
    rw [Scope.baseId] at hlt
    rw [Scope.libraryId]
    omega
  · rw [List.mem_singleton.mp hs]
    exact Nat.one_ne_zero

/-- A name can be assigned to exactly if a look-up finds it in a scope other than the library's. -/
theorem Descends.exists_assign_iff {c : Context} (h : c.Descends) (name : String)
    (value : Located) :
    (∃ c', c.assign name value = .done c') ↔
      ∃ scope, c.scopes[c.level name]? = some scope ∧ scope.id ≠ Scope.libraryId := by
  constructor
  · rintro ⟨c', hdone⟩
    have hlt := level_lt_own (assigned_of_assign hdone).bound
    refine ⟨c.own[c.level name], ?_, h.id_ne_libraryId (List.getElem_mem hlt)⟩
    rw [getElem?_scopes, if_pos hlt, List.getElem?_eq_getElem hlt]
  · rintro ⟨scope, hscope, hid⟩
    obtain ⟨hlt, heq⟩ := List.getElem?_eq_some_iff.mp hscope
    have hbound : scope.vars.contains name = true := by
      have hfound := @List.findIdx_getElem _ (fun inner : Scope => inner.vars.contains name) _ hlt
      rw [← heq]
      exact hfound
    have hmem : scope ∈ c.own ++ [⟨Scope.libraryId, c.library⟩] :=
      c.scopes_eq_own_append ▸ List.mem_of_getElem? hscope
    by_contra hrefused
    obtain hown | hlast := List.mem_append.mp hmem
    · have hunbound := (assign_refused (not_exists.mp hrefused)).1 scope hown
      simp [hunbound] at hbound
    · exact hid (congrArg Scope.id (List.mem_singleton.mp hlast))

end Context

namespace Session

/-- The ids of scopes go down from the current scope to the library at every moment of a
session. -/
theorem descends_of_mem {s : Session} (hs : s.Fresh) {timeline : List Happening} {c : Context}
    (hc : c ∈ (s.afterAll timeline).contexts) : c.Descends := by
  rw [contexts_afterAll] at hc
  obtain ⟨life, hlife, rfl⟩ := List.mem_map.mp hc
  obtain ⟨policy, library, horigin⟩ := hs _ (origin_mem hlife)
  rw [Life.context, horigin]
  exact (Context.descends_new policy library).afterAll life.events

/-! ## variables of a session -/

/-- Variables at every moment of a session, be it in the middle of a request.

A look-up finds the binding of the name at one level.  Assigning to the name succeeds exactly if
a scope other than the library's is at this level.  It then gives the new value to this very
binding, so that the next look-up finds it; every other binding of every scope stays as it is,
those of the same name further out included, and so do all names and their order.  If it fails,
nothing has changed, and the error tells whether only the library binds the name or no scope
does.

Declaring the name makes the next look-up find the value.  It touches the current scope alone,
where the name keeps its place or, if it is new there, comes after all others, and the look-up
of every other name is as before. -/
theorem variables_lawful {s : Session} (hs : s.Fresh) (timeline : List Happening) {c : Context}
    (hc : c ∈ (s.afterAll timeline).contexts) (name : Name) (value : Located) :
    let level := c.level name.text
    c.get? name.text = c.binding? level name.text ∧
      (∀ m : Machine, m.world.context = c →
        let run := assignVariable name value m
        ((∃ m', run = .ok () m') ↔
            ∃ scope, c.scopes[level]? = some scope ∧ scope.id ≠ Scope.libraryId) ∧
          (∀ m', run = .ok () m' →
            let c' := m'.world.context
            c'.get? name.text = some value ∧ c.Sets level name.text value c' ∧
              c'.names = c.names ∧ m'.world.store = m.world.store) ∧
          ∀ stop m', run = .error stop m' →
            m' = m ∧ ∃ e, stop = .error e ∧ c.Refuses name e) ∧
      let c' := c.declare name.text value
      c'.get? name.text = some value ∧ c.Sets 0 name.text value c' ∧
        ∀ other, other ≠ name.text → c'.get? other = c.get? other := by
  intro level
  refine ⟨c.get?_eq_binding? name.text, ?_, ?_⟩
  · rintro m rfl run
    have hiff := (descends_of_mem hs hc).exists_assign_iff name.text value
    obtain ⟨c', hdone, m', hrun, hworld⟩ | ⟨hrefused, e, hrefuses, hrun⟩ :=
      Context.assignVariable_cases name value m
    · obtain ⟨hsets, hnames⟩ := (Context.assigned_of_assign hdone).sets
      have hget : c'.get? name.text = some value := hsets.get? (Nat.le_refl level)
      refine ⟨iff_of_true ⟨m', hrun⟩ (hiff.mp ⟨c', hdone⟩), fun m'' h => ?_, fun stop m'' h => ?_⟩
      · cases hrun.symm.trans h
        rw [hworld]
        exact ⟨hget, hsets, hnames, rfl⟩
      · cases hrun.symm.trans h
    · have hfails (m' : Machine) : run ≠ .ok () m' := fun h => by cases hrun.symm.trans h
      refine ⟨iff_of_false (not_exists.mpr hfails) (mt hiff.mpr (not_exists.mpr hrefused)),
        fun m' h => absurd h (hfails m'), fun stop m' h => ?_⟩
      cases hrun.symm.trans h
      exact ⟨rfl, e, rfl, hrefuses⟩
  · intro c'
    refine ⟨by simp [c', Context.get?_declare], c.sets_declare name.text value, ?_⟩
    intro other hne
    simp [c', Context.get?_declare, hne]

/-- A variable is shadowed in a block and assigned to there: the outer one keeps its value, and
only the library has a function that says whether an instance has a field. -/
theorem variables_lawful_shadowed :
    let s := (start .raise true).2
    let outer : Located := ⟨.int 1, .source .synthetic⟩
    let inner : Located := ⟨.int 2, .source .synthetic⟩
    let new : Located := ⟨.int 3, .source .synthetic⟩
    let timeline : List Happening :=
      [.event 0 (.declared "x" inner), .event 0 .blockEntered, .event 0 (.declared "x" outer)]
    ∃ c ∈ (s.afterAll timeline).contexts, c.get? "x" = some inner ∧
      ∀ m : Machine, m.world.context = c →
        (∃ m', assignVariable ⟨.synthetic, "x"⟩ new m = .ok () m' ∧
          m'.world.context.get? "x" = some new ∧ m'.world.context.binding? 1 "x" = some outer) ∧
        ∃ e, assignVariable ⟨.synthetic, "hasField"⟩ new m = .error (.error e) m ∧
          c.Refuses ⟨.synthetic, "hasField"⟩ e := by
  intro s outer inner new timeline
  have hfacts : ((s.afterAll timeline).contexts[0]?.map fun c =>
      (c.get? "x", c.binding? 1 "x", c.level "x", c.scopes[c.level "x"]?.map (·.id),
        c.scopes[c.level "hasField"]?.map (·.id))) =
      some (some inner, some outer, 0, some 2, some Scope.libraryId) := by decide +kernel
  obtain ⟨c, hc, hfacts⟩ := Option.map_eq_some_iff.mp hfacts
  have hmem : c ∈ (s.afterAll timeline).contexts := List.mem_of_getElem? hc
  simp only [Prod.mk.injEq] at hfacts
  obtain ⟨hget, houter, hlevel, hown, hnative⟩ := hfacts
  refine ⟨c, hmem, hget, fun m hm => ⟨?_, ?_⟩⟩
  · obtain ⟨_, hassign, _⟩ :=
      variables_lawful (fresh_start .raise true) timeline hmem ⟨.synthetic, "x"⟩ new
    obtain ⟨hiff, hdone, _⟩ := hassign m hm
    obtain ⟨scope, hscope, hid⟩ := Option.map_eq_some_iff.mp hown
    obtain ⟨m', hm'⟩ := hiff.mpr ⟨scope, hscope, by simp [hid, Scope.libraryId]⟩
    obtain ⟨hnew, hsets, _⟩ := hdone m' hm'
    exact ⟨m', hm', hnew, by simp [hsets.binding?, hlevel, houter]⟩
  · obtain ⟨_, hassign, _⟩ :=
      variables_lawful (fresh_start .raise true) timeline hmem ⟨.synthetic, "hasField"⟩ new
    obtain ⟨hiff, _, hfails⟩ := hassign m hm
    cases hrun : assignVariable ⟨.synthetic, "hasField"⟩ new m with
    | ok u m' =>
        obtain ⟨scope, hscope, hid⟩ := hiff.mp ⟨m', hrun⟩
        simp [hscope, hid] at hnative
    | error stop m' =>
        obtain ⟨rfl, e, rfl, hrefuses⟩ := hfails stop m' hrun
        exact ⟨e, rfl, hrefuses⟩

end Session

end FieldScript
