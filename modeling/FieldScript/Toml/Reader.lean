import FieldScript.Text.Cut
import FieldScript.Range

/-!
# FieldScript.Toml.Reader

Reading a text from left to right.

A reader takes what it wants from the front of a text, or fails.  It knows the byte
offset it has come to, which is how ranges are found.  Repetition is bounded by the
number of characters that are left, and each round takes at least one.
-/

namespace FieldScript

namespace Toml

/-- What is left of a text, and how many bytes came before. -/
structure Cursor where
  rest : List Char
  offset : Nat

abbrev Reader := StateT Cursor Option

namespace Reader

variable {α : Type}

/-! ## single characters -/

/-- Takes the next character. -/
def next : Reader Char := fun s =>
  match s.rest with
  | [] => none
  | c :: rest => some (c, ⟨rest, s.offset + c.utf8Size⟩)

/-- Takes a character of some kind. -/
def satisfy (p : Char → Bool) : Reader Char := do
  let c ← next
  if p c then return c else failure

/-- Takes just this character. -/
def char (c : Char) : Reader Unit := do
  let _ ← satisfy (· == c)

/-- The next character, which stays. -/
def peek? : Reader (Option Char) := do return (← get).rest.head?

/-! ## runs of characters -/

/-- Takes these characters. -/
def chars : List Char → Reader Unit
  | [] => pure ()
  | c :: rest => do
    char c
    chars rest

/-- Takes all characters of some kind. -/
def takeWhile (p : Char → Bool) : Reader (List Char) := fun s =>
  let taken := s.rest.takeWhile p
  some (taken, ⟨s.rest.dropWhile p, s.offset + Text.byteLength taken⟩)

/-- Do these characters come next?  They stay. -/
def ahead (cs : List Char) : Reader Bool := do return cs.isPrefixOf (← get).rest

/-- Takes a character if it comes next. -/
def opt (c : Char) : Reader Bool := do
  if (← peek?) == some c then
    let _ ← next
    return true
  else return false

/-- Nothing may be left. -/
def atEnd : Reader Unit := do
  if (← get).rest.isEmpty then return () else failure

/-! ## ranges and repetition -/

/-- What a reader takes, with its range. -/
def ranged (p : Reader α) : Reader (α × Range) := do
  let start := (← get).offset
  let a ← p
  return (a, ⟨start, (← get).offset - start⟩)

/-- The characters that a reader takes. -/
def taken (p : Reader α) : Reader (List Char) := do
  let before := (← get).rest
  let _ ← p
  return before.take (before.length - (← get).rest.length)

/-- Runs a loop with a bound that it cannot exhaust if it takes a character in each
round. -/
def bounded (loop : Nat → Reader α) : Reader α := do
  loop ((← get).rest.length + 1)

/-- Reads a text from its beginning. -/
def run? (p : Reader α) (text : List Char) : Option α :=
  (p ⟨text, 0⟩).map (·.1)

end Reader

end Toml

end FieldScript
