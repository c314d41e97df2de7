import FieldScript.Range

/-!
# FieldScript.Toml.Tree

TOML documents as trees.

Every value and key keeps the range of the text it was read from, so that what is
wrong with a document can be shown in it.  A table that is only implied by a longer
key has no range.  Entries stand in the order of the document.
-/

namespace FieldScript

namespace Toml

/-! ## values -/

/-- A simple key. -/
structure Key where
  range : Range
  text : String
deriving DecidableEq

/-- A number with a fraction or an exponent, as it is written. -/
inductive Number where
  /-- The number `± digits · 10^exponent`. -/
  | decimal (negative : Bool) (digits : Nat) (exponent : Int)
  | infinite (negative : Bool)
  | notANumber (negative : Bool)
deriving DecidableEq

inductive Value where
  | string (range : Range) (text : String)
  | integer (range : Range) (value : Int)
  | float (range : Range) (value : Number)
  | boolean (range : Range) (value : Bool)
  /-- A date, a time or both, by its text. -/
  | datetime (range : Range) (text : String)
  | array (range : Range) (items : List Value)
  /-- A table in braces, or one that a dotted key inside braces implies; only the
  first has a range. -/
  | inlineTable (range : Option Range) (entries : List (Key × Value))

/-- The range of a value, if it has one of its own. -/
def Value.range? : Value → Option Range
  | .string r _ | .integer r _ | .float r _ | .boolean r _ | .datetime r _ | .array r _ => some r
  | .inlineTable r _ => r

/-! ## tables -/

/-- How a table came about. -/
inductive Origin where
  /-- It has a header, or it is the document. -/
  | header
  /-- A header of a table inside it implies it. -/
  | implied
  /-- A dotted key implies it. -/
  | dotted
deriving DecidableEq

mutual

/-- What a key of a table stands for. -/
inductive Item where
  | value (value : Value)
  | table (table : Table)
  /-- An array of tables, in which each header adds one. -/
  | tables (elements : List Table)

inductive Table where
  | mk (origin : Origin) (range : Option Range) (entries : List (Key × Item))

end

namespace Table

def origin : Table → Origin
  | .mk o _ _ => o

def range? : Table → Option Range
  | .mk _ r _ => r

def entries : Table → List (Key × Item)
  | .mk _ _ es => es

/-- A document without entries. -/
def empty : Table := .mk .header none []

end Table

/-- The least range that covers two. -/
def cover (a b : Range) : Range := ⟨a.start, b.stop - a.start⟩

/-- The range of an array of tables: from its first table to its last. -/
def tablesRange? (elements : List Table) : Option Range :=
  match elements.head?.bind Table.range?, elements.getLast?.bind Table.range? with
  | some first, some last => some (cover first last)
  | _, _ => none

/-- The range of an item, if it has one of its own. -/
def Item.range? : Item → Option Range
  | .value v => v.range?
  | .table t => t.range?
  | .tables elements => tablesRange? elements

/-! ## entries -/

/-- What a name stands for. -/
def lookup? {α : Type} (name : String) : List (Key × α) → Option α
  | [] => none
  | (key, value) :: rest => if key.text = name then some value else lookup? name rest

/-- Replaces what a name stands for, in place. -/
def replace {α : Type} (name : String) (value : α) : List (Key × α) → List (Key × α)
  | [] => []
  | (key, old) :: rest =>
    if key.text = name then (key, value) :: rest else (key, old) :: replace name value rest

/-- Drops a name. -/
def remove {α : Type} (name : String) (entries : List (Key × α)) : List (Key × α) :=
  entries.filter (·.1.text ≠ name)

end Toml

end FieldScript
