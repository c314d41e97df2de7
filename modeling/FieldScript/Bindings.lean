/-!
# FieldScript.Bindings

Names bound to values, in the order in which the names were first bound.

Binding a name again replaces its value and keeps its place, so the listing of a
scope or of an instance shows names by age.  Reading is by name, and the entries
hold each name once as long as they are built by `insert`.
-/

namespace FieldScript

/-- An insertion-ordered map from names. -/
structure Bindings (α : Type) where
  entries : List (String × α)

namespace Bindings

variable {α : Type}

instance : EmptyCollection (Bindings α) := ⟨⟨[]⟩⟩

instance : Inhabited (Bindings α) := ⟨∅⟩

/-! ## reading -/

/-- The first value that a list of pairs gives to a name. -/
def find? (name : String) : List (String × α) → Option α
  | [] => none
  | (key, value) :: rest => if key = name then some value else find? name rest

/-- The value a name is bound to. -/
def get? (b : Bindings α) (name : String) : Option α := find? name b.entries

/-- Is the name bound, to whatever value? -/
def contains (b : Bindings α) (name : String) : Bool := (b.get? name).isSome

/-- The names, oldest first. -/
def names (b : Bindings α) : List String := b.entries.map (·.1)

def size (b : Bindings α) : Nat := b.entries.length

def isEmpty (b : Bindings α) : Bool := b.entries.isEmpty

/-! ## writing -/

/-- Replaces the value of a name in place, or puts the pair at the end. -/
def place (name : String) (value : α) : List (String × α) → List (String × α)
  | [] => [(name, value)]
  | (key, old) :: rest =>
    if key = name then (key, value) :: rest else (key, old) :: place name value rest

/-- Binds a name: a new name goes to the end, a known one keeps its place. -/
def insert (b : Bindings α) (name : String) (value : α) : Bindings α :=
  ⟨place name value b.entries⟩

/-- Binds every pair in turn. -/
def ofList (pairs : List (String × α)) : Bindings α :=
  pairs.foldl (fun b p => b.insert p.1 p.2) ∅

/-- The same names bound to the images of their values. -/
def map {β : Type} (f : α → β) (b : Bindings α) : Bindings β :=
  ⟨b.entries.map fun p => (p.1, f p.2)⟩

/-! ## laws of insertion -/

@[simp] theorem get?_empty (name : String) : (∅ : Bindings α).get? name = none := rfl

@[simp] theorem names_empty : (∅ : Bindings α).names = [] := rfl

theorem find?_place (name other : String) (value : α) (entries : List (String × α)) :
    find? other (place name value entries) =
      if other = name then some value else find? other entries := by
  induction entries with
  | nil => simp [place, find?, eq_comm]
  | cons entry rest ih =>
    obtain ⟨key, old⟩ := entry
    grind [place, find?]

/-- Reading after an insertion sees the inserted value under its name, and every
other name as before. -/
@[simp] theorem get?_insert (b : Bindings α) (name other : String) (value : α) :
    (b.insert name value).get? other = if other = name then some value else b.get? other :=
  find?_place name other value b.entries

theorem find?_isSome_iff (name : String) (entries : List (String × α)) :
    (find? name entries).isSome = true ↔ name ∈ entries.map (·.1) := by
  induction entries with
  | nil => simp [find?]
  | cons entry rest ih =>
    obtain ⟨key, old⟩ := entry
    grind [find?]

/-- The bound names are the listed ones. -/
theorem contains_iff_mem_names (b : Bindings α) (name : String) :
    b.contains name = true ↔ name ∈ b.names :=
  find?_isSome_iff name b.entries

theorem map_fst_place (name : String) (value : α) (entries : List (String × α)) :
    (place name value entries).map (·.1) =
      if name ∈ entries.map (·.1) then entries.map (·.1) else entries.map (·.1) ++ [name] := by
  induction entries with
  | nil => simp [place]
  | cons entry rest ih =>
    obtain ⟨key, old⟩ := entry
    grind [place]

/-- A name that is bound keeps its place; a new one goes to the end. -/
theorem names_insert (b : Bindings α) (name : String) (value : α) :
    (b.insert name value).names = if name ∈ b.names then b.names else b.names ++ [name] :=
  map_fst_place name value b.entries

end Bindings

end FieldScript
