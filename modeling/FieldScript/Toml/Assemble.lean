import FieldScript.Toml.Tree

/-!
# FieldScript.Toml.Assemble

How the lines of a document make up its tables.

A document is a list of statements: headers of tables, headers of elements of table
arrays, and pairs of a key and a value.  A pair belongs to the latest header.  No
key is ever given twice, and a table that one form of key has made is not open to
another.
-/

namespace FieldScript

namespace Toml

/-! ## statements -/

inductive Statement where
  /-- The header `[path.key]`. -/
  | header (range : Range) (path : List Key) (key : Key)
  /-- The header `[[path.key]]`. -/
  | element (range : Range) (path : List Key) (key : Key)
  /-- The pair `path.key = value`. -/
  | pair (path : List Key) (key : Key) (value : Value)

/-! ## tables in braces -/

/-- The entries of a table in braces after one more pair.  A dotted key goes into
tables that dotted keys have made, and into no others. -/
def addInline (key : Key) (value : Value) : List Key → List (Key × Value) →
    Option (List (Key × Value))
  | [], entries =>
    match lookup? key.text entries with
    | none => some (entries ++ [(key, value)])
    | some _ => none
  | first :: path, entries =>
    match lookup? first.text entries with
    | none => do
      let inner ← addInline key value path []
      return entries ++ [(first, .inlineTable none inner)]
    | some (.inlineTable none inner) => do
      return replace first.text (.inlineTable none (← addInline key value path inner)) entries
    | some _ => none

/-- The entries of a table in braces. -/
def inlineEntries? (pairs : List (List Key × Key × Value)) : Option (List (Key × Value)) :=
  pairs.foldlM (fun entries p => addInline p.2.1 p.2.2 p.1 entries) []

/-! ## tables with headers -/

namespace Table

def find? (t : Table) (name : String) : Option Item := lookup? name t.entries

def withEntries (t : Table) (entries : List (Key × Item)) : Table :=
  .mk t.origin t.range? entries

/-- Puts an entry at the end. -/
def append (t : Table) (key : Key) (item : Item) : Table :=
  t.withEntries (t.entries ++ [(key, item)])

/-- Changes the table at the end of a path.  A table that is missing on the way is
made, and an array of tables stands for its last element.  A dotted key does not
lead through a table with a header. -/
def alter (dotted : Bool) (f : Table → Option Table) : List Key → Table → Option Table
  | [], t => f t
  | key :: path, t =>
    match t.find? key.text with
    | none => do
      let made ← alter dotted f path (.mk (if dotted then .dotted else .implied) none [])
      return t.append key (.table made)
    | some (.table inner) =>
      if dotted && inner.origin == .header then none
      else do
        let changed ← alter dotted f path inner
        return t.withEntries (replace key.text (.table changed) t.entries)
    | some (.tables elements) => do
      let last ← elements.getLast?
      let changed ← alter dotted f path last
      return t.withEntries
        (replace key.text (.tables (elements.dropLast ++ [changed])) t.entries)
    | some (.value _) => none

/-- Adds a pair by its whole key.  A dotted key has to end in a table that dotted
keys have made, and a simple key in one that they have not. -/
def addPair (t : Table) (path : List Key) (key : Key) (value : Value) : Option Table :=
  alter true
    (fun t =>
      if (t.origin == .dotted) == path.isEmpty then none
      else
        match t.find? key.text with
        | none => some (t.append key (.value value))
        | some _ => none)
    path t

/-- Stretches the range of a table to the end of one of its values. -/
def reach (t : Table) (value : Value) : Table :=
  match t.range?, value.range? with
  | some r, some v => .mk t.origin (some (cover r v)) t.entries
  | _, _ => t

/-- Opens the table of a header.  A table that was only implied so far moves to the
end. -/
def openHeader (range : Range) (key : Key) (t : Table) : Option Table :=
  match t.find? key.text with
  | none => some (t.append key (.table (.mk .header (some range) [])))
  | some (.table inner) =>
    if inner.origin == .implied then
      some ((t.withEntries (remove key.text t.entries)).append key
        (.table (.mk .header (some range) inner.entries)))
    else none
  | some _ => none

/-- Adds an element to an array of tables. -/
def openElement (range : Range) (key : Key) (t : Table) : Option Table :=
  let element : Table := .mk .header (some range) []
  match t.find? key.text with
  | none => some (t.append key (.tables [element]))
  | some (.tables elements) =>
    some (t.withEntries (replace key.text (.tables (elements ++ [element])) t.entries))
  | some _ => none

end Table

/-! ## documents -/

/-- A document so far, and the path of the latest header. -/
structure Draft where
  root : Table
  current : List Key

namespace Draft

def empty : Draft := ⟨.empty, []⟩

/-- A document after one more statement. -/
def add (d : Draft) : Statement → Option Draft
  | .header range path key => do
    return ⟨← d.root.alter false (Table.openHeader range key) path, path ++ [key]⟩
  | .element range path key => do
    return ⟨← d.root.alter false (Table.openElement range key) path, path ++ [key]⟩
  | .pair path key value => do
    let into (t : Table) : Option Table := (t.addPair path key value).map (·.reach value)
    return ⟨← d.root.alter false into d.current, d.current⟩

end Draft

/-- The table that statements make up. -/
def Table.ofStatements? (statements : List Statement) : Option Table :=
  (statements.foldlM Draft.add Draft.empty).map (·.root)

end Toml

end FieldScript
