import FieldScript.Event

/-!
# FieldScript.Proofs.Scopes

What declarations, assignments and blocks do to the alive scopes.

A context keeps the library, the base scope and the blocks apart; these lemmas say what
happens to all of them as one list from the current scope outward (`Frames.scopes`).  All that
an assignment changes is said once (`Context.Assigned`), and so is what no event changes
(`World.settings_afterAll`).
-/

namespace FieldScript

/-- The scopes that can be assigned to: all but the library's. -/
def Frames.own (f : Frames) : List Scope := f.blocks ++ [⟨Scope.baseId, f.base⟩]

/-- The level of the scope that a look-up finds the name in, counted from the current scope
outward.  If no scope binds it, this is the number of scopes. -/
def Frames.level (f : Frames) (name : String) : Nat :=
  f.scopes.findIdx (·.vars.contains name)

/-- The library's scope is the outermost one. -/
theorem Frames.scopes_eq_own_append (f : Frames) :
    f.scopes = f.own ++ [⟨Scope.libraryId, f.library⟩] := by
  simp [scopes, own]

/-- A name that no alive scope binds is not found. -/
theorem Frames.get?_eq_none {f : Frames} {name : String}
    (hown : ∀ scope ∈ f.own, scope.vars.contains name = false)
    (hlibrary : f.library.contains name = false) : f.get? name = none := by
  rw [get?_eq_findSome?_scopes, List.findSome?_eq_none_iff, scopes_eq_own_append]
  intro scope hmem
  obtain hmem | hmem := List.mem_append.mp hmem
  · have hunbound : (scope.vars.get? name).isSome = false := hown scope hmem
    simpa using hunbound
  · have hunbound : (f.library.get? name).isSome = false := hlibrary
    rw [List.mem_singleton.mp hmem]
    simpa using hunbound

namespace Context

/-- The current scope is the innermost one. -/
theorem scopes_eq_cons (c : Context) : c.scopes = c.current :: c.scopes.tail := by
  obtain ⟨outer, h⟩ := c.scopes_eq_current_cons
  rw [h]
  rfl

/-- The scopes of blocks stand before the base scope and the library's. -/
theorem map_id_scopes (c : Context) :
    c.scopes.map (·.id) = c.blocks.map (·.id) ++ [Scope.baseId, Scope.libraryId] := by
  simp [Frames.scopes]

/-! ## blocks and declarations -/

/-- Leaving a block takes the innermost scope off. -/
theorem scopes_leaveBlock {c : Context} (h : c.blocks ≠ []) :
    c.leaveBlock.scopes = c.scopes.tail := by
  cases hb : c.blocks with
  | nil => exact absurd hb h
  | cons scope outer => simp [leaveBlock, Frames.scopes, hb]

/-- Declaring binds the name in the current scope. -/
theorem scopes_declare (c : Context) (name : String) (value : Located) :
    (c.declare name value).scopes =
      { c.current with vars := c.current.vars.insert name value } :: c.scopes.tail := by
  cases h : c.blocks <;> simp [declare, Frames.scopes, Frames.current, h]

theorem counter_declare (c : Context) (name : String) (value : Located) :
    (c.declare name value).counter = c.counter := by
  cases h : c.blocks <;> simp [declare, h]

theorem library_declare (c : Context) (name : String) (value : Located) :
    (c.declare name value).library = c.library := by
  cases h : c.blocks <;> simp [declare, h]

theorem policy_declare (c : Context) (name : String) (value : Located) :
    (c.declare name value).policy = c.policy := by
  cases h : c.blocks <;> simp [declare, h]

/-! ## assignments -/

/-- Replacing a binding keeps whatever of a scope does not depend on the value that a bound
name has. -/
theorem map_replaceFirst_eq {β : Type} {f : Scope → β} {name : String} {value : Located}
    (hf : ∀ scope, scope.vars.contains name = true →
      f { scope with vars := scope.vars.insert name value } = f scope) (scopes : List Scope) :
    (replaceFirst name value scopes).map f = scopes.map f := by
  induction scopes with
  | nil => rfl
  | cons scope outer ih =>
      rw [replaceFirst]
      split
      · next hbound => rw [List.map_cons, List.map_cons, hf scope hbound]
      · rw [List.map_cons, List.map_cons, ih]

/-- Replacing a binding keeps the scopes. -/
theorem map_id_replaceFirst (name : String) (value : Located) (scopes : List Scope) :
    (replaceFirst name value scopes).map (·.id) = scopes.map (·.id) := by
  refine map_replaceFirst_eq ?_ scopes
  intro scope _
  rfl

/-- The innermost scopes are searched first. -/
theorem replaceFirst_append (name : String) (value : Located) (inner outer : List Scope) :
    replaceFirst name value (inner ++ outer) =
      if inner.any (·.vars.contains name) then replaceFirst name value inner ++ outer
      else inner ++ replaceFirst name value outer := by
  induction inner with
  | nil => rfl
  | cons scope rest ih =>
      rw [List.cons_append, replaceFirst, List.any_cons, replaceFirst, ih]
      cases scope.vars.contains name with
      | true => simp
      | false => by_cases h : rest.any (·.vars.contains name) = true <;> simp [h]

/-- Where no scope binds the name there is nothing to replace. -/
theorem replaceFirst_of_unbound {name : String} {scopes : List Scope}
    (h : ¬ scopes.any (·.vars.contains name) = true) (value : Located) :
    replaceFirst name value scopes = scopes := by
  have happ := replaceFirst_append name value scopes []
  rwa [if_neg h, replaceFirst, List.append_nil] at happ

/-- What an assignment changes: the innermost binding that is not the library's. -/
structure Assigned (c : Context) (name : String) (value : Located) (c' : Context) : Prop where
  bound : c.own.any (·.vars.contains name) = true
  own : c'.own = replaceFirst name value c.own
  library : c'.library = c.library
  calls : c'.calls = c.calls
  policy : c'.policy = c.policy
  counter : c'.counter = c.counter

/-- What an assignment comes to: it is done, or there is no binding it could change. -/
theorem assign_cases (c : Context) (name : String) (value : Located) :
    (∃ c', c.assign name value = .done c' ∧ c.Assigned name value c') ∨
      ((c.assign name value = .libraryItem ∨ c.assign name value = .unbound) ∧
        ¬ c.own.any (·.vars.contains name) = true) := by
  have hown : c.own.any (·.vars.contains name) =
      (c.blocks.any (·.vars.contains name) || c.base.contains name) := by
    simp [Frames.own]
  unfold assign
  by_cases hblocks : c.blocks.any (·.vars.contains name) = true
  · refine .inl ⟨_, if_pos hblocks, by simp [hown, hblocks], ?_, rfl, rfl, rfl, rfl⟩
    rw [Frames.own, Frames.own, replaceFirst_append, if_pos hblocks]
  · rw [if_neg hblocks]
    by_cases hbase : c.base.contains name = true
    · refine .inl ⟨_, if_pos hbase, by simp [hown, hbase], ?_, rfl, rfl, rfl, rfl⟩
      rw [Frames.own, Frames.own, replaceFirst_append, if_neg hblocks, replaceFirst, if_pos hbase]
    · rw [if_neg hbase]
      refine .inr ⟨?_, by simp [hown, hblocks, hbase]⟩
      split
      · exact .inl rfl
      · exact .inr rfl

/-- An assignment that is done has its effect on the scopes of the context alone. -/
theorem assigned_of_assign {c c' : Context} {name : String} {value : Located}
    (h : c.assign name value = .done c') : c.Assigned name value c' := by
  obtain ⟨_, hdone, hassigned⟩ | ⟨hnone | hnone, _⟩ := c.assign_cases name value
  · cases h.symm.trans hdone
    exact hassigned
  · cases h.symm.trans hnone
  · cases h.symm.trans hnone

/-- An assignment replaces the innermost binding of a name. -/
theorem Assigned.scopes {c c' : Context} {name : String} {value : Located}
    (h : c.Assigned name value c') : c'.scopes = replaceFirst name value c.scopes := by
  rw [Frames.scopes_eq_own_append, Frames.scopes_eq_own_append, replaceFirst_append,
    if_pos h.bound, h.own, h.library]

/-- What is refused is not bound in any scope that can be assigned to. -/
theorem assign_refused {c : Context} {name : String} {value : Located}
    (h : ∀ c', c.assign name value ≠ .done c') :
    (∀ scope ∈ c.own, scope.vars.contains name = false) ∧
      c.assign name value = if c.library.contains name then .libraryItem else .unbound := by
  obtain ⟨c', hdone, _⟩ | ⟨_, hown⟩ := c.assign_cases name value
  · exact absurd hdone (h c')
  · have hnone : ∀ scope ∈ c.own, scope.vars.contains name = false := by simpa using hown
    refine ⟨hnone, ?_⟩
    have hblocks : ¬ c.blocks.any (·.vars.contains name) = true := by
      simpa using fun scope hmem => hnone scope (List.mem_append_left _ hmem)
    have hbase : ¬ c.base.contains name = true := by
      simp [hnone ⟨Scope.baseId, c.base⟩ (List.mem_append_right _ (List.mem_singleton_self _))]
    rw [assign, if_neg hblocks, if_neg hbase]

/-- Replacing a binding keeps the names of all scopes. -/
theorem names_replaceFirst (name : String) (value : Located) (scopes : List Scope) :
    (replaceFirst name value scopes).map (·.vars.names) = scopes.map (·.vars.names) := by
  refine map_replaceFirst_eq ?_ scopes
  intro scope hbound
  have hmem := (scope.vars.contains_iff_mem_names name).mp hbound
  rw [Bindings.names_insert, if_pos hmem]

/-- An assignment binds no name anew in the base scope. -/
theorem Assigned.base_names {c c' : Context} {name : String} {value : Located}
    (h : c.Assigned name value c') : c'.base.names = c.base.names := by
  have hnames : c'.own.map (·.vars.names) = c.own.map (·.vars.names) := by
    rw [h.own, names_replaceFirst]
  simp only [Frames.own, List.map_append, List.map_cons, List.map_nil] at hnames
  exact List.singleton_inj.mp (List.append_inj_right' hnames rfl)

/-- Replacing a binding keeps those of other names. -/
theorem get?_replaceFirst_of_ne {name other : String} (hne : other ≠ name) (value : Located)
    (scopes : List Scope) (level : Nat) :
    (replaceFirst name value scopes)[level]?.bind (·.vars.get? other) =
      scopes[level]?.bind (·.vars.get? other) := by
  have hsame : (replaceFirst name value scopes).map (·.vars.get? other) =
      scopes.map (·.vars.get? other) := by
    refine map_replaceFirst_eq ?_ scopes
    intro scope _
    simp [hne]
  have hlevel := congrArg (·[level]?.bind id) hsame
  simp only [List.getElem?_map, Option.bind_map] at hlevel
  exact hlevel

/-- A binding that is hidden by one further in is not the one replaced. -/
theorem get?_replaceFirst_of_hidden (name other : String) (value : Located)
    (scopes : List Scope) {inner level : Nat} (hlt : inner < level)
    (hin : (scopes[inner]?.bind (·.vars.get? other)).isSome = true) :
    (replaceFirst name value scopes)[level]?.bind (·.vars.get? other) =
      scopes[level]?.bind (·.vars.get? other) := by
  by_cases hne : other = name
  · subst hne
    induction scopes generalizing inner level with
    | nil => rfl
    | cons scope outer ih =>
        obtain ⟨level, rfl⟩ : ∃ k, level = k + 1 := ⟨level - 1, by omega⟩
        rw [replaceFirst]
        split
        · rfl
        · next hunbound =>
            cases inner with
            | zero => exact absurd hin hunbound
            | succ inner => exact ih (Nat.lt_of_succ_lt_succ hlt) hin
  · exact get?_replaceFirst_of_ne hne value scopes level

end Context

/-! ## events -/

/-- What an assignment that has happened comes to. -/
theorem World.after_assigned (w : World) (name : String) (value : Located) :
    (∃ c', w.context.Assigned name value c' ∧
        w.after (.assigned name value) = { w with context := c' }) ∨
      (¬ w.context.own.any (·.vars.contains name) = true ∧
        w.after (.assigned name value) = w) := by
  rw [after]
  obtain ⟨c', hdone, hassigned⟩ | ⟨hnone | hnone, hunbound⟩ := w.context.assign_cases name value
  · exact .inl ⟨c', hassigned, by rw [hdone]⟩
  · exact .inr ⟨hunbound, by rw [hnone]⟩
  · exact .inr ⟨hunbound, by rw [hnone]⟩

/-- No event changes the policy or the library. -/
theorem World.settings_after (w : World) (event : Event) :
    (w.after event).context.policy = w.context.policy ∧
      (w.after event).context.library = w.context.library := by
  cases event with
  | declared name value =>
      exact ⟨w.context.policy_declare name value, w.context.library_declare name value⟩
  | assigned name value =>
      obtain ⟨c', hassigned, hafter⟩ | ⟨_, hafter⟩ := w.after_assigned name value
      · rw [hafter]
        exact ⟨hassigned.policy, hassigned.library⟩
      · rw [hafter]
        exact ⟨rfl, rfl⟩
  | _ => exact ⟨rfl, rfl⟩

/-- No event changes the policy or the library. -/
theorem World.settings_afterAll (w : World) (events : List Event) :
    (w.afterAll events).context.policy = w.context.policy ∧
      (w.afterAll events).context.library = w.context.library := by
  induction events with
  | nil => exact ⟨rfl, rfl⟩
  | cons event earlier ih =>
      obtain ⟨hpolicy, hlibrary⟩ := (w.afterAll earlier).settings_after event
      exact ⟨hpolicy.trans ih.1, hlibrary.trans ih.2⟩

end FieldScript
