import FieldScript.Toml.Blank

/-!
# FieldScript.Toml.Quoted

The four kinds of strings.

A basic string stands in double quotes and has escapes; a literal string stands in
single quotes and has none.  Each can also stand in three quotes and then run over
several lines: a line end directly after the opening is dropped, and up to two
quotes may stand next to the closing ones.
-/

namespace FieldScript

namespace Toml

namespace Reader

/-! ## escapes -/

def hexValue? (c : Char) : Option Nat :=
  if '0' ≤ c && c ≤ '9' then some (c.toNat - 48)
  else if 'a' ≤ c && c ≤ 'f' then some (c.toNat - 87)
  else if 'A' ≤ c && c ≤ 'F' then some (c.toNat - 55)
  else none

/-- Takes exactly so many hexadecimal digits. -/
def hexDigits : (count : Nat) → (value : Nat) → Reader Nat
  | 0, value => pure value
  | count + 1, value => do
    match hexValue? (← next) with
    | some digit => hexDigits count (16 * value + digit)
    | none => failure

/-- The character of a number; a surrogate is none. -/
def scalar (code : Nat) : Reader Char :=
  if code.isValidChar then pure (Char.ofNat code) else failure

/-- Takes what follows a backslash. -/
def escaped : Reader Char := do
  match ← next with
  | 'b' => return '\x08'
  | 't' => return '\t'
  | 'n' => return '\n'
  | 'f' => return '\x0c'
  | 'r' => return '\r'
  | '"' => return '"'
  | '\\' => return '\\'
  | 'u' => scalar (← hexDigits 4 0)
  | 'U' => scalar (← hexDigits 8 0)
  | _ => failure

/-! ## strings on one line -/

/-- Takes a basic string after its opening quote. -/
def basicRest : Reader (List Char) :=
  bounded loop
where
  loop : Nat → Reader (List Char)
    | 0 => failure
    | n + 1 => do
      match ← next with
      | '"' => return []
      | '\\' => do
        let c ← escaped
        return c :: (← loop n)
      | c => if isText c then return c :: (← loop n) else failure

/-- Takes a literal string after its opening quote. -/
def literalRest : Reader (List Char) := do
  let text ← takeWhile fun c => isText c && c != '\''
  char '\''
  return text

/-! ## strings over several lines -/

/-- How many of these characters come next? -/
def countAhead (c : Char) : Reader Nat := do
  return ((← get).rest.takeWhile (· == c)).length

/-- Takes the closing quotes, and the one or two before them that belong to the
string. -/
def closing (quote : Char) (count : Nat) : Reader (List Char) := do
  chars (List.replicate (min count 5) quote)
  return List.replicate (min count 5 - 3) quote

/-- Does a line end follow, after any blanks?  A backslash before it then drops it
and all blank lines that follow. -/
def lineEndAhead : Reader Bool := do
  let rest := (← get).rest.dropWhile isBlank
  return ['\n'].isPrefixOf rest || ['\r', '\n'].isPrefixOf rest

/-- Takes blanks and line ends. -/
def continuation : Reader Unit :=
  bounded loop
where
  loop : Nat → Reader Unit
    | 0 => pure ()
    | n + 1 => do
      match ← peek? with
      | some '\n' => lineFeed; loop n
      | some '\r' => lineFeed; loop n
      | some c => if isBlank c then blanks; loop n
      | none => pure ()

/-- Takes a line end if one comes next. -/
def optLineFeed : Reader Unit := do
  if (← ahead ['\n']) || (← ahead ['\r', '\n']) then lineFeed

/-- Takes a basic string over several lines after its opening quotes. -/
def multilineBasicRest : Reader (List Char) := do
  optLineFeed
  bounded loop
where
  loop : Nat → Reader (List Char)
    | 0 => failure
    | n + 1 => do
      let quotes ← countAhead '"'
      if 3 ≤ quotes then closing '"' quotes
      else
        match ← next with
        | '\\' =>
          if ← lineEndAhead then
            continuation
            loop n
          else
            let c ← escaped
            return c :: (← loop n)
        | '\n' => return '\n' :: (← loop n)
        | '\r' =>
          char '\n'
          return '\n' :: (← loop n)
        | c => if isText c then return c :: (← loop n) else failure

/-- Takes a literal string over several lines after its opening quotes. -/
def multilineLiteralRest : Reader (List Char) := do
  optLineFeed
  bounded loop
where
  loop : Nat → Reader (List Char)
    | 0 => failure
    | n + 1 => do
      let quotes ← countAhead '\''
      if 3 ≤ quotes then closing '\'' quotes
      else
        match ← next with
        | '\n' => return '\n' :: (← loop n)
        | '\r' =>
          char '\n'
          return '\n' :: (← loop n)
        | c => if isText c then return c :: (← loop n) else failure

/-! ## any of them -/

/-- Takes a string on one line. -/
def lineString : Reader (List Char) := do
  match ← next with
  | '"' => basicRest
  | '\'' => literalRest
  | _ => failure

/-- Takes a string of any kind. -/
def anyString : Reader (List Char) := do
  if ← ahead ['"', '"', '"'] then
    chars ['"', '"', '"']
    multilineBasicRest
  else if ← ahead ['\'', '\'', '\''] then
    chars ['\'', '\'', '\'']
    multilineLiteralRest
  else lineString

end Reader

end Toml

end FieldScript
