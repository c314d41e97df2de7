import FieldScript.Toml.Reader

/-!
# FieldScript.Toml.Blank

Blanks, line ends and comments of TOML.

A line ends in a line feed, or in a carriage return and a line feed; a carriage
return by itself is never allowed.  Comments hold no control characters but the
tab.
-/

namespace FieldScript

namespace Toml

def isBlank (c : Char) : Bool := c == ' ' || c == '\t'

/-- The characters that may stand in comments, and in strings unless they have a
meaning there. -/
def isText (c : Char) : Bool := c == '\t' || (0x20 ≤ c.toNat && c.toNat != 0x7F)

def isDigit (c : Char) : Bool := '0' ≤ c && c ≤ '9'

namespace Reader

/-- Takes blanks within a line. -/
def blanks : Reader Unit := do
  let _ ← takeWhile isBlank

/-- Takes a line end. -/
def lineFeed : Reader Unit := do
  let _ ← opt '\r'
  char '\n'

/-- Takes a comment up to the end of its line. -/
def comment : Reader Unit := do
  char '#'
  let _ ← takeWhile isText

/-- Takes the rest of a line on which nothing but a comment may follow. -/
def restOfLine : Reader Unit := do
  blanks
  if (← peek?) == some '#' then comment
  lineFeed <|> atEnd

/-- Takes blanks, line ends and comments in any order. -/
def blankLines : Reader Unit :=
  bounded loop
where
  loop : Nat → Reader Unit
    | 0 => pure ()
    | n + 1 => do
      match ← peek? with
      | some '#' => comment; loop n
      | some '\n' => lineFeed; loop n
      | some '\r' => lineFeed; loop n
      | some c => if isBlank c then blanks; loop n
      | none => pure ()

end Reader

end Toml

end FieldScript
