import FieldScript.Toml.Scalar
import FieldScript.Toml.Assemble

/-!
# FieldScript.Toml.Document

Reading TOML documents.

A document is read into statements, line by line, and these make up its table.  Keys
have fewer than eighty parts and values are nested less than eighty deep.
-/

namespace FieldScript

namespace Toml

/-- Keys and values stay below this in parts and in depth. -/
def depthLimit : Nat := 80

namespace Reader

variable {α : Type}

/-! ## keys -/

def isBare (c : Char) : Bool := c.isAlphanum || c == '_' || c == '-'

/-- Takes one part of a key. -/
def simpleKey : Reader Key := do
  let (text, range) ← ranged do
    match ← peek? with
    | some '"' | some '\'' => lineString
    | _ =>
      let c ← satisfy isBare
      return c :: (← takeWhile isBare)
  return ⟨range, String.ofList text⟩

/-- Takes the parts of a key after the first. -/
def moreKeys : Reader (List Key) :=
  bounded loop
where
  loop : Nat → Reader (List Key)
    | 0 => failure
    | n + 1 => do
      blanks
      if ← opt '.' then
        blanks
        let key ← simpleKey
        return key :: (← loop n)
      else return []

/-- Takes a key, with blanks around its parts: all parts but the last, and the
last. -/
def key : Reader (List Key × Key) := do
  blanks
  let first ← simpleKey
  let keys := first :: (← moreKeys)
  if keys.length < depthLimit then return (keys.dropLast, keys.getLast?.getD first)
  else failure

/-- Takes a key and its value, and the blanks after the equals sign. -/
def pair (value : Reader Value) : Reader (List Key × Key × Value) := do
  let (path, last) ← key
  char '='
  blanks
  return (path, last, ← value)

/-! ## values that hold others -/

/-- Takes the items of an array and its closing bracket. -/
def items (value : Reader Value) : Reader (List Value) :=
  bounded loop
where
  loop : Nat → Reader (List Value)
    | 0 => failure
    | n + 1 => do
      blankLines
      if ← opt ']' then return []
      else
        let v ← value
        blankLines
        if ← opt ',' then return v :: (← loop n)
        else
          char ']'
          return [v]

/-- Takes the pairs of a table in braces, of which there is at least one, and its
closing brace. -/
def inlinePairs (value : Reader Value) : Reader (List (List Key × Key × Value)) :=
  bounded loop
where
  loop : Nat → Reader (List (List Key × Key × Value))
    | 0 => failure
    | n + 1 => do
      let p ← pair value
      blanks
      if ← opt ',' then return p :: (← loop n)
      else
        char '\x7d'
        return [p]

/-- Takes an array, given how to take an item. -/
def array (value : Reader Value) : Reader (Range → Value) := do
  char '['
  let vs ← items value
  return fun r => .array r vs

/-- Takes a table in braces, given how to take a value. -/
def inlineTable (value : Reader Value) : Reader (Range → Value) := do
  char '\x7b'
  blanks
  if ← opt '\x7d' then return fun r => .inlineTable (some r) []
  else
    match inlineEntries? (← inlinePairs value) with
    | some entries => return fun r => .inlineTable (some r) entries
    | none => failure

/-- Takes a value that nests at most so deep. -/
def value : (depth : Nat) → Reader Value
  | 0 => do
    let (v, range) ← ranged scalarValue
    return v range
  | depth + 1 => do
    let (v, range) ← ranged do
      match ← peek? with
      | some '[' => array (value depth)
      | some '\x7b' => inlineTable (value depth)
      | _ => scalarValue
    return v range

/-! ## lines -/

/-- Takes the header of a table or of an element of a table array. -/
def header : Reader Statement := do
  if ← ahead ['[', '['] then
    let ((path, last), range) ← ranged do
      chars ['[', '[']
      let k ← key
      chars [']', ']']
      return k
    return .element range path last
  else
    let ((path, last), range) ← ranged do
      char '['
      let k ← key
      char ']'
      return k
    return .header range path last

/-- Takes the statement on a line, if there is one. -/
def statements : Reader (List Statement) := do
  match ← peek? with
  | none | some '#' | some '\n' | some '\r' => return []
  | some '[' => return [← header]
  | some _ =>
    let (path, last, v) ← pair (value (depthLimit - 1))
    return [.pair path last v]

/-- Takes a line. -/
def line : Reader (List Statement) := do
  blanks
  let found ← statements
  restOfLine
  return found

/-- Takes all lines. -/
def document : Reader (List Statement) := do
  let _ ← opt '\ufeff'
  bounded loop
where
  loop : Nat → Reader (List Statement)
    | 0 => failure
    | n + 1 => do
      let found ← line
      match ← peek? with
      | none => return found
      | some _ => return found ++ (← loop n)

end Reader

/-- The table of a document, if the text is one. -/
def read? (text : List Char) : Option Table :=
  (Reader.document.run? text).bind Table.ofStatements?

end Toml

end FieldScript
