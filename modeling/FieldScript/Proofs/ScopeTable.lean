import FieldScript.Proofs.Timeline

/-!
# FieldScript.Proofs.ScopeTable

The scopes of a context in one list.

A context keeps the library, the base scope and the blocks apart, so neither can a block
go where the library is nor can the base scope be dropped.  A `ScopeTable` keeps them
together: a list of scopes under 64-bit ids that is pushed to, popped and cut back, and
that knows the library by its id alone.  As long as the ids do not run out, such a table
goes through the same states as the context (`ScopeTable.represents_afterAll`), whatever
happens: the ids go up from the library to the current scope, and an id is given out
once.
-/

namespace FieldScript

/-! ## tables -/

/-- A scope under a 64-bit id. -/
structure Row where
  id : UInt64
  vars : Bindings Located

/-- The scope that a row stands for. -/
def Row.scope (row : Row) : Scope := ⟨row.id.toNat, row.vars⟩

/-- Binds a name in the scope of a row. -/
def Row.insert (row : Row) (name : String) (value : Located) : Row :=
  { row with vars := row.vars.insert name value }

/-- The alive scopes, the current one first, and the latest id given out. -/
structure ScopeTable where
  counter : UInt64
  rows : List Row

namespace ScopeTable

/-- The table of a context in which nothing has happened yet. -/
def new (library : Bindings Located) : ScopeTable := ⟨1, [⟨1, ∅⟩, ⟨0, library⟩]⟩

/-- The id that the next scope gets. -/
def next (t : ScopeTable) : UInt64 := t.counter + 1

/-- Puts a scope with the next id above the current one. -/
def enter (t : ScopeTable) : ScopeTable := ⟨t.next, ⟨t.next, ∅⟩ :: t.rows⟩

/-- Drops the current scope; the base scope and the library's stay. -/
def leave (t : ScopeTable) : ScopeTable :=
  match t.rows with
  | [] => t
  | row :: outer => if 1 < row.id then { t with rows := outer } else t

/-- Drops all scopes but the two at the bottom. -/
def reset (t : ScopeTable) : ScopeTable := { t with rows := t.rows.drop (t.rows.length - 2) }

/-- Binds a name in the current scope. -/
def declare (t : ScopeTable) (name : String) (value : Located) : ScopeTable :=
  match t.rows with
  | [] => t
  | row :: outer => { t with rows := row.insert name value :: outer }

/-- Replaces the value of a name in the first of the scopes that binds it, unless this
is the library's. -/
def replaceFirst (name : String) (value : Located) : List Row → List Row
  | [] => []
  | row :: outer =>
    if row.vars.contains name then (if row.id = 0 then row else row.insert name value) :: outer
    else row :: replaceFirst name value outer

def assign (t : ScopeTable) (name : String) (value : Located) : ScopeTable :=
  { t with rows := replaceFirst name value t.rows }

/-- The table once an event has happened. -/
def after (t : ScopeTable) : Event → ScopeTable
  | .programAborted _ => t.reset
  | .blockEntered => t.enter
  | .blockLeft => t.leave
  | .declared name value => t.declare name value
  | .assigned name value => t.assign name value
  | .libraryBuilt _ | .programStarted _ | .programCompleted | .callEntered _ _ | .callLeft
  | .classCreated _ | .instantiated _ _ | .instanceSupplied _ | .functionCreated _
  | .fieldSet _ _ _ | .fieldMissed _ _ _ | .fallbackUsed _ _ | .clockRead => t

/-- The table after a journal of events, latest first. -/
def afterAll (t : ScopeTable) : List Event → ScopeTable
  | [] => t
  | event :: earlier => (t.afterAll earlier).after event

/-- The library is at the bottom and as it was, the base scope comes next, ids go up
from there to the current scope, and none is above the counter. -/
structure Orderly (library : Bindings Located) (t : ScopeTable) : Prop where
  two : 2 ≤ t.rows.length
  library : t.rows.reverse[0]? = some ⟨0, library⟩
  base : t.rows.reverse[1]?.map (·.id) = some 1
  increasing : (t.rows.reverse.map (·.id)).Pairwise (· < ·)
  counted : ∀ row ∈ t.rows, row.id ≤ t.counter

/-- The table holds the scopes of the context. -/
structure Represents (t : ScopeTable) (c : Context) : Prop where
  counter : t.counter.toNat = c.counter
  scopes : t.rows.map Row.scope = c.scopes

end ScopeTable

/-! ## the ids of a context -/

namespace Context

/-- What an assignment changes: the scopes that are not the library's. -/
theorem own_after_assigned (c : Context) (name : String) (value : Located) :
    let c' := c.after (.assigned name value)
    c'.own = replaceFirst name value c.own ∧ c'.library = c.library ∧ c'.counter = c.counter := by
  intro c'
  obtain ⟨changed, hassigned, hafter⟩ | ⟨hunbound, hafter⟩ :=
    World.after_assigned ⟨c, ∅⟩ name value
  · have hchanged : c' = changed := congrArg World.context hafter
    rw [hchanged]
    exact ⟨hassigned.own, hassigned.library, hassigned.counter⟩
  · have hsame : c' = c := congrArg World.context hafter
    rw [hsame, replaceFirst_of_unbound hunbound]
    exact ⟨rfl, rfl, rfl⟩

/-- Entering a block is the only way for the counter to go up. -/
theorem counter_after (c : Context) (event : Event) :
    (c.after event).counter = c.counter + if event = .blockEntered then 1 else 0 := by
  cases event with
  | declared name value => exact c.counter_declare name value
  | assigned name value => exact (c.own_after_assigned name value).2.2
  | _ => rfl

/-- The counter tells how many blocks have been entered. -/
theorem counter_afterAll (c : Context) (events : List Event) :
    (c.afterAll events).counter = c.counter + events.count .blockEntered := by
  induction events with
  | nil => rfl
  | cons event earlier ih =>
      rw [afterAll, counter_after, ih, List.count_cons, Nat.add_assoc]
      simp

/-- No event changes the library. -/
theorem library_afterAll (c : Context) (events : List Event) :
    (c.afterAll events).library = c.library := by
  have hlibrary := (World.settings_afterAll ⟨c, ∅⟩ events).2
  rwa [World.afterAll_eq] at hlibrary

/-- The next id and the ids of the alive scopes go down from the current scope to the
library. -/
def Descends (c : Context) : Prop := ((c.counter + 1) :: c.scopes.map (·.id)).Pairwise (· > ·)

theorem descends_new (policy : Policy) (library : Bindings Located) :
    (new policy library).Descends := by
  simp [Descends, new, Frames.scopes, Scope.baseId, Scope.libraryId]

theorem Descends.lt_counter {c : Context} (h : c.Descends) {scope : Scope}
    (hs : scope ∈ c.scopes) : scope.id < c.counter + 1 :=
  List.rel_of_pairwise_cons h (List.mem_map_of_mem hs)

/-- The ids of blocks are above that of the base scope. -/
theorem Descends.baseId_lt {c : Context} (h : c.Descends) {scope : Scope} (hs : scope ∈ c.blocks) :
    Scope.baseId < scope.id := by
  rw [Descends, map_id_scopes, ← List.cons_append, List.pairwise_append] at h
  exact h.2.2 _ (List.mem_cons_of_mem _ (List.mem_map_of_mem hs)) _ List.mem_cons_self

/-- Dropping scopes keeps the order. -/
theorem Descends.of_sublist {c c' : Context} (h : c.Descends) (hcounter : c'.counter = c.counter)
    (hids : (c'.scopes.map (·.id)).Sublist (c.scopes.map (·.id))) : c'.Descends := by
  rw [Descends, hcounter]
  exact h.sublist (hids.cons_cons _)

theorem Descends.of_ids {c c' : Context} (h : c.Descends) (hcounter : c'.counter = c.counter)
    (hids : c'.scopes.map (·.id) = c.scopes.map (·.id)) : c'.Descends := by
  have hsame : (c'.scopes.map (·.id)).Sublist (c.scopes.map (·.id)) := hids ▸ List.Sublist.refl _
  exact h.of_sublist hcounter hsame

theorem Descends.enterBlock {c : Context} (h : c.Descends) : c.enterBlock.Descends := by
  refine List.pairwise_cons.mpr ⟨fun id hid => ?_, h⟩
  obtain rfl | hid := List.mem_cons.mp hid
  · exact Nat.lt_succ_self _
  · exact Nat.lt_succ_of_lt (List.rel_of_pairwise_cons h hid)

theorem Descends.after {c : Context} (h : c.Descends) (event : Event) :
    (c.after event).Descends := by
  cases event with
  | programAborted e =>
      refine h.of_sublist rfl ?_
      rw [map_id_scopes, map_id_scopes]
      exact List.sublist_append_right _ _
  | blockEntered => exact h.enterBlock
  | blockLeft =>
      refine h.of_sublist rfl ?_
      rw [map_id_scopes, map_id_scopes]
      exact ((List.tail_sublist c.blocks).map _).append_right _
  | declared name value =>
      have hids : (c.declare name value).scopes.map (·.id) = c.scopes.map (·.id) := by
        rw [map_id_scopes, map_id_scopes, (c.sameAlive_declare name value).1]
      exact h.of_ids (c.counter_declare name value) hids
  | assigned name value =>
      obtain ⟨hown, hlibrary, hcounter⟩ := c.own_after_assigned name value
      refine h.of_ids hcounter ?_
      rw [Frames.scopes_eq_own_append, Frames.scopes_eq_own_append, List.map_append,
        List.map_append, hown, hlibrary, map_id_replaceFirst]
  | _ => exact h

theorem Descends.afterAll {c : Context} (h : c.Descends) (events : List Event) :
    (c.afterAll events).Descends := by
  induction events with
  | nil => exact h
  | cons event earlier ih => exact ih.after event

end Context

/-! ## one step of both -/

namespace ScopeTable

variable {t : ScopeTable} {c : Context}

theorem represents_new (policy : Policy) (library : Bindings Located) :
    (new library).Represents (.new policy library) :=
  ⟨rfl, rfl⟩

theorem eq_of_scope {row : Row} {id : UInt64} {vars : Bindings Located}
    (h : row.scope = ⟨id.toNat, vars⟩) : row = ⟨id, vars⟩ := by
  have hid : row.id = id := UInt64.toNat_inj.mp (congrArg Scope.id h)
  have hvars : row.vars = vars := congrArg Scope.vars h
  rw [← hid, ← hvars]

/-- The blocks of a context come before its base scope and the library. -/
theorem Represents.rows_eq (h : t.Represents c) :
    ∃ inner, t.rows = inner ++ [⟨1, c.base⟩, ⟨0, c.library⟩] ∧
      inner.map Row.scope = c.blocks := by
  obtain ⟨inner, outer, hrows, hinner, houter⟩ := List.map_eq_append_iff.mp h.scopes
  obtain ⟨base, rest, rfl, hbase, hrest⟩ := List.map_eq_cons_iff.mp houter
  obtain ⟨bottom, rest, rfl, hbottom, hrest⟩ := List.map_eq_cons_iff.mp hrest
  cases List.map_eq_nil_iff.mp hrest
  have hbaseRow : base = ⟨1, c.base⟩ := eq_of_scope hbase
  have hbottomRow : bottom = ⟨0, c.library⟩ := eq_of_scope hbottom
  exact ⟨inner, by rw [hrows, hbaseRow, hbottomRow], hinner⟩

theorem Represents.toNat_next (h : t.Represents c) (hlt : c.counter + 1 < UInt64.size) :
    t.next.toNat = c.counter + 1 := by
  rw [next, UInt64.toNat_add, h.counter]
  exact Nat.mod_eq_of_lt hlt

theorem Represents.enter (h : t.Represents c) (hlt : c.counter + 1 < UInt64.size) :
    t.enter.Represents c.enterBlock := by
  have hid := h.toNat_next hlt
  refine ⟨hid, ?_⟩
  rw [ScopeTable.enter, List.map_cons, h.scopes, Row.scope, hid]
  rfl

theorem Represents.leave (h : t.Represents c) (hd : c.Descends) :
    t.leave.Represents c.leaveBlock := by
  obtain ⟨inner, hrows, hinner⟩ := h.rows_eq
  cases inner with
  | nil =>
      -- the id of the base scope keeps it where it is
      have hstay : t.leave = t := by
        rw [ScopeTable.leave, hrows]
        rfl
      have hsame : c.leaveBlock = c := by
        rw [Context.leaveBlock, ← hinner]
        exact congrArg (fun blocks => { c with blocks := blocks }) hinner
      rwa [hstay, hsame]
  | cons row rest =>
      have hblock : row.scope ∈ c.blocks := hinner ▸ List.mem_cons_self
      have hlt : 1 < row.id := UInt64.lt_iff_toNat_lt.mpr (hd.baseId_lt hblock)
      have hleave : t.leave = { t with rows := rest ++ [⟨1, c.base⟩, ⟨0, c.library⟩] } := by
        rw [ScopeTable.leave, hrows]
        exact if_pos hlt
      rw [hleave]
      refine ⟨h.counter, ?_⟩
      rw [List.map_append, Context.leaveBlock, Frames.scopes, ← hinner]
      rfl

theorem Represents.reset (h : t.Represents c) : t.reset.Represents c.reset := by
  refine ⟨h.counter, ?_⟩
  have hlength : t.rows.length - 2 = c.blocks.length := by
    rw [← List.length_map (f := Row.scope), h.scopes, Frames.scopes, List.length_append]
    rfl
  rw [ScopeTable.reset, List.map_drop, h.scopes, hlength, Frames.scopes, List.drop_left]
  rfl

theorem Represents.declare (h : t.Represents c) (name : String) (value : Located) :
    (t.declare name value).Represents (c.declare name value) := by
  have hscopes := h.scopes
  rw [Context.scopes_eq_cons] at hscopes
  obtain ⟨row, outer, hrows, hrow, houter⟩ := List.map_eq_cons_iff.mp hscopes
  rw [ScopeTable.declare, hrows]
  refine ⟨h.counter.trans (c.counter_declare name value).symm, ?_⟩
  rw [Context.scopes_declare, List.map_cons, houter, ← hrow]
  rfl

/-- The rows that assignments can reach are those above the library's. -/
theorem map_replaceFirst (name : String) (value : Located) {inner : List Row} {bottom : Row}
    (hinner : ∀ row ∈ inner, row.id ≠ 0) (hbottom : bottom.id = 0) :
    (replaceFirst name value (inner ++ [bottom])).map Row.scope =
      Context.replaceFirst name value (inner.map Row.scope) ++ [bottom.scope] := by
  induction inner with
  | nil => simp [replaceFirst, Context.replaceFirst, hbottom]
  | cons row rest ih =>
      obtain ⟨hrow, hrest⟩ := List.forall_mem_cons.mp hinner
      rw [List.cons_append, replaceFirst, List.map_cons, Context.replaceFirst]
      by_cases hbound : row.vars.contains name = true
      · simp [Row.scope, Row.insert, hbound, hrow]
      · have hscope : ¬ row.scope.vars.contains name = true := hbound
        rw [if_neg hbound, if_neg hscope, List.map_cons, ih hrest, List.cons_append]

theorem Represents.assign (h : t.Represents c) (hd : c.Descends) (name : String)
    (value : Located) :
    (t.assign name value).Represents (c.after (.assigned name value)) := by
  obtain ⟨hown, hlibrary, hcounter⟩ := c.own_after_assigned name value
  obtain ⟨inner, hrows, hinner⟩ := h.rows_eq
  let base : Row := ⟨1, c.base⟩
  have hsplit : t.rows = (inner ++ [base]) ++ [⟨0, c.library⟩] := by simp [hrows, base]
  have hmap : (inner ++ [base]).map Row.scope = c.own := by
    rw [List.map_append, hinner]
    rfl
  have hbase : base.id ≠ 0 := (by decide : (1 : UInt64) ≠ 0)
  have hpos (row : Row) (hmem : row ∈ inner ++ [base]) : row.id ≠ 0 := by
    obtain hmem | hmem := List.mem_append.mp hmem
    · intro hzero
      have hlt := hd.baseId_lt (hinner ▸ List.mem_map_of_mem hmem)
      rw [Row.scope, hzero] at hlt
      exact Nat.not_lt_zero _ hlt
    · rwa [List.mem_singleton.mp hmem]
  refine ⟨h.counter.trans hcounter.symm, ?_⟩
  rw [ScopeTable.assign, hsplit, map_replaceFirst name value hpos rfl, hmap,
    Frames.scopes_eq_own_append, hown, hlibrary]
  rfl

/-- What happens to a context happens to its table. -/
theorem Represents.after (h : t.Represents c) (hd : c.Descends) (event : Event)
    (hlt : (c.after event).counter < UInt64.size) : (t.after event).Represents (c.after event) := by
  cases event with
  | programAborted e => exact h.reset
  | blockEntered => exact h.enter hlt
  | blockLeft => exact h.leave hd
  | declared name value => exact h.declare name value
  | assigned name value => exact h.assign hd name value
  | _ => exact ⟨h.counter, h.scopes⟩

/-- A new context has given out one id, so the counter is ahead by one. -/
theorem counter_new_afterAll (policy : Policy) (library : Bindings Located)
    (events : List Event) :
    ((Context.new policy library).afterAll events).counter = 1 + events.count .blockEntered :=
  (Context.new policy library).counter_afterAll events

/-- As long as the ids do not run out, a table goes through the states of the context
that it was made for. -/
theorem represents_afterAll (policy : Policy) (library : Bindings Located) {events : List Event}
    (h : events.count .blockEntered < UInt64.size - 2) :
    ((new library).afterAll events).Represents ((Context.new policy library).afterAll events) := by
  induction events with
  | nil => exact represents_new policy library
  | cons event earlier ih =>
      have hearlier := Nat.lt_of_le_of_lt ((List.sublist_cons_self _ _).count_le _) h
      have hd := (Context.descends_new policy library).afterAll earlier
      refine (ih hearlier).after hd event ?_
      have hcounter := counter_new_afterAll policy library (event :: earlier)
      rw [Context.afterAll] at hcounter
      omega

/-! ## what tables keep -/

/-- A table that stands for a context whose ids descend is orderly. -/
theorem Represents.orderly (h : t.Represents c) (hd : c.Descends) : t.Orderly c.library := by
  obtain ⟨inner, hrows, _⟩ := h.rows_eq
  have hids : t.rows.map (·.id.toNat) = c.scopes.map (·.id) := by
    rw [← h.scopes, List.map_map]
    rfl
  refine ⟨?_, ?_, ?_, ?_, ?_⟩
  · simp [hrows]
  · simp [hrows]
  · simp [hrows]
  · have hsorted : (t.rows.map (·.id.toNat)).Pairwise (· > ·) :=
      hids ▸ (List.pairwise_cons.mp hd).2
    rw [List.map_reverse, List.pairwise_reverse]
    rw [List.pairwise_map] at hsorted ⊢
    exact hsorted.imp fun hgt => UInt64.lt_iff_toNat_lt.mpr hgt
  · intro row hrow
    have hin : row.scope ∈ c.scopes := h.scopes ▸ List.mem_map_of_mem hrow
    rw [UInt64.le_iff_toNat_le, h.counter]
    exact Nat.lt_succ_iff.mp (hd.lt_counter hin)

/-- An id is given out once: no scope that was alive at some moment has the id that comes
next. -/
theorem id_ne_next (library : Bindings Located) {events moment : List Event}
    (h : events.count .blockEntered < UInt64.size - 2) (hm : moment <:+ events) {row : Row}
    (hrow : row ∈ ((new library).afterAll moment).rows) :
    row.id ≠ ((new library).afterAll events).next := by
  have hcount : moment.count .blockEntered ≤ events.count .blockEntered := hm.sublist.count_le _
  have hthen := represents_afterAll .raise library (Nat.lt_of_le_of_lt hcount h)
  have hdthen := (Context.descends_new .raise library).afterAll moment
  have hcounter := counter_new_afterAll .raise library events
  have hnext := (represents_afterAll .raise library h).toNat_next (by omega)
  have hid := hdthen.lt_counter (hthen.scopes ▸ List.mem_map_of_mem hrow)
  have hsofar := counter_new_afterAll .raise library moment
  -- ids were at most the counter then, and the counter only goes up
  intro heq
  have hsame : row.scope.id = ((new library).afterAll events).next.toNat :=
    congrArg UInt64.toNat heq
  omega

end ScopeTable

/-! ## sessions -/

namespace Session

/-- Every context of a session was there at the start or is a copy of one that was. -/
theorem origin_mem {s : Session} {timeline : List Happening} {life : Life}
    (h : life ∈ s.lives timeline) : life.origin ∈ s.contexts := by
  induction timeline generalizing life with
  | nil =>
      obtain ⟨c, hc, rfl⟩ := List.mem_map.mp h
      exact hc
  | cons happening earlier ih =>
      cases happening with
      | event index event =>
          obtain ⟨i, hi⟩ := List.mem_iff_getElem?.mp h
          rw [lives, List.getElem?_modify, Option.map_eq_map, Option.map_eq_some_iff] at hi
          obtain ⟨before, hbefore, rfl⟩ := hi
          have horigin := ih (List.mem_of_getElem? hbefore)
          split <;> exact horigin
      | copied index =>
          obtain h | h := List.mem_append.mp h
          · exact ih h
          · exact ih (List.mem_of_getElem? (Option.mem_toList.mp h))

/-- Whatever happens in a session, each of its contexts is what the events of its life
have made of a new one, those before it was copied included.  Unless it has entered
about 2 ^ 64 blocks, its scopes are those of a table under 64-bit ids that has gone
through the same events: at least two, with the library as it was at the bottom and the
base scope next, with ids that go up and are counted, and with a next id that none of
its scopes has ever had.  Timelines may end in the middle of a request, and all sessions
that requests lead to have one. -/
theorem scopes_orderly {s : Session} (hs : s.Fresh) (timeline : List Happening) :
    (s.afterAll timeline).contexts = (s.lives timeline).map Life.context ∧
      (∀ life ∈ s.lives timeline, ∃ policy library, life.origin = .new policy library ∧
        (life.events.count .blockEntered < UInt64.size - 2 →
          let table := (ScopeTable.new library).afterAll life.events
          table.Represents life.context ∧ table.Orderly library ∧
            ∀ moment, moment <:+ life.events →
              ∀ row ∈ ((ScopeTable.new library).afterAll moment).rows, row.id ≠ table.next)) ∧
      ∀ host s', Reaches host s s' → ∃ past, s.afterAll past = s' := by
  refine ⟨s.contexts_afterAll timeline, ?_, ?_⟩
  · intro life hlife
    obtain ⟨policy, library, horigin⟩ := hs life.origin (origin_mem hlife)
    refine ⟨policy, library, horigin, fun hcount => ?_⟩
    intro table
    have hcontext : life.context = (Context.new policy library).afterAll life.events := by
      rw [Life.context, horigin]
    have hrepresents : table.Represents life.context :=
      hcontext ▸ ScopeTable.represents_afterAll policy library hcount
    have hlibrary : life.context.library = library := by
      rw [hcontext, Context.library_afterAll]
      rfl
    have hdescends : life.context.Descends :=
      hcontext ▸ (Context.descends_new policy library).afterAll life.events
    refine ⟨hrepresents, hlibrary ▸ hrepresents.orderly hdescends, fun moment hm row hrow => ?_⟩
    exact ScopeTable.id_ne_next library hcount hm hrow
  · intro host s' h
    obtain ⟨past, _, hpast⟩ := reaches_iff_past.mp h
    exact ⟨past, hpast⟩

/-- A program stops at the exit of its block, the context is copied, and the program is
run in the copy: its block has a new id there. -/
theorem scopes_orderly_copy :
    let s := (start .raise true).2
    let earlier := s.answered failingHost 3 [] 0 (.run attemptInBlock)
    let now := (s.answered failingHost 3 (.copied 0 :: earlier) 1 (.run attemptInBlock)).drop 4
    ∃ life ∈ s.lives now, life.context.scopes.map (·.id) = [3, 1, 0] ∧
      ∃ table : ScopeTable, table.Represents life.context ∧ table.Orderly life.origin.library := by
  intro s earlier now
  have hcopy : ((s.lives now)[1]?.map fun life =>
      (life.context.scopes.map (·.id), life.events.count .blockEntered)) =
        some ([3, 1, 0], 2) := by decide +kernel
  obtain ⟨life, hlife, hfacts⟩ := Option.map_eq_some_iff.mp hcopy
  have hmem := List.mem_of_getElem? hlife
  obtain ⟨hids, hcount⟩ := Prod.mk.inj hfacts
  obtain ⟨policy, library, horigin, hall⟩ :=
    (scopes_orderly (fresh_start .raise true) now).2.1 life hmem
  obtain ⟨hrepresents, horderly, _⟩ := hall (by rw [hcount]; decide)
  refine ⟨life, hmem, hids, _, hrepresents, ?_⟩
  rw [horigin]
  exact horderly

end Session

end FieldScript
