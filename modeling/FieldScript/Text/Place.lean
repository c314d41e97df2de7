import FieldScript.Text.Cut

/-!
# FieldScript.Text.Place

Lines and columns of a text.

An offset is told to a reader as a line and a column, both counted from one and the
column in characters.
-/

namespace FieldScript

/-- A line and a column, counted from one. -/
structure Place where
  line : Nat
  column : Nat
deriving DecidableEq

namespace Place

/-- The text since the last line feed. -/
def lastLine (before : List Char) : List Char :=
  (before.reverse.takeWhile (· ≠ '\n')).reverse

/-- The text up to the next line feed. -/
def restOfLine (after : List Char) : List Char := after.takeWhile (· ≠ '\n')

/-- The place at the end of a text. -/
def ofBefore (before : List Char) : Place :=
  ⟨before.count '\n' + 1, (lastLine before).length + 1⟩

/-- The place of an offset, if it lies between characters of the text. -/
def ofOffset? (source : List Char) (offset : Nat) : Option Place :=
  (Text.cut? source offset).map fun parts => ofBefore parts.1

def text (p : Place) : String :=
  "line " ++ toString p.line ++ ", column " ++ toString p.column

/-! ## small laws -/

theorem lastLine_append_lineFeed (before : List Char) : lastLine (before ++ ['\n']) = [] := by
  simp [lastLine]

theorem lastLine_append_of_ne {c : Char} (before : List Char) (h : c ≠ '\n') :
    lastLine (before ++ [c]) = lastLine before ++ [c] := by
  simp [lastLine, h]

end Place

end FieldScript
