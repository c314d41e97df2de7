import FieldScript.Text.Place
import FieldScript.Range

/-!
# FieldScript.Report.Extract

The line of an error.

An extract shows the line that a range starts in, without its line end, and how far
the range reaches in that line.
-/

namespace FieldScript

/-- A line of a program text with a part of it marked. -/
structure Extract where
  place : Place
  content : List Char
  /-- How many characters are marked, from the place on. -/
  marked : Nat
deriving DecidableEq

namespace Extract

/-- A line without its end: a line feed, or a carriage return and a line feed.
`closed` tells whether a line feed follows. -/
def stripEnd (line : List Char) (closed : Bool) : List Char :=
  if closed && line.getLast? == some '\r' then line.dropLast else line

/-- The line around a cut. -/
def lineAt (before after : List Char) : List Char :=
  stripEnd (Place.lastLine before ++ Place.restOfLine after) (after.contains '\n')

/-- The number of characters that a range marks: those up to its end or the end of
the line, and at least one. -/
def markedAt (before after : List Char) (range : Range) : Nat :=
  let start := Text.byteLength before
  let lineStop := start - Text.byteLength (Place.lastLine before)
    + Text.byteLength (lineAt before after)
  let stop := min range.stop lineStop
  if stop < start then 1
  else
    match Text.cut? after (stop - start) with
    | some (inside, _) => max 1 inside.length
    | none => 1

/-- The extract for a range; a synthetic range has none, nor has one that does not
start between characters of the text. -/
def ofRange? (source : List Char) (range : Range) : Option Extract :=
  if range.isSynthetic then none
  else
    (Text.cut? source range.start).map fun parts =>
      ⟨.ofBefore parts.1, lineAt parts.1 parts.2, markedAt parts.1 parts.2 range⟩

end Extract

end FieldScript
