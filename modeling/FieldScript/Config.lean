import FieldScript.Context
import FieldScript.Toml.Document
import FieldScript.Text.Place

/-!
# FieldScript.Config

The configuration of a context, read from a TOML document.

The one setting is the policy for malformed calls, under `native-arg-errors`.  It is
the name of a policy, or a table whose only key is that name and stands for
nothing.  A document with any other key is refused, so a misspelt setting is never
taken for the default.
-/

namespace FieldScript

namespace Config

/-! ## problems -/

/-- What is wrong with a document as a configuration. -/
inductive Cause where
  | unknownField (name : String)
  | unknownVariant (name : String)
  | noElement
  | severalElements
  | neitherStringNorTable
  | arrayNotEmpty
  | tableNotEmpty
  | notATable (kind : String)
deriving DecidableEq

/-- What is wrong, and where. -/
structure Problem where
  range : Range
  cause : Cause
deriving DecidableEq

/-- The key of the policy. -/
def policyKey : String := "native-arg-errors"

def Cause.message : Cause → String
  | .unknownField name => "unknown field `" ++ name ++ "`, expected `" ++ policyKey ++ "`"
  | .unknownVariant name => "unknown variant `" ++ name ++ "`, expected `raise` or `fallback`"
  | .noElement => "wanted exactly 1 element, found 0 elements"
  | .severalElements => "wanted exactly 1 element, more than 1 element"
  | .neitherStringNorTable => "wanted string or table"
  | .arrayNotEmpty => "expected empty array"
  | .tableNotEmpty => "expected empty table"
  | .notATable kind => "expected table, found " ++ kind

/-! ## policies -/

/-- The policy of a name. -/
def policyOfName? (name : String) : Option Policy :=
  if name = "raise" then some .raise
  else if name = "fallback" then some .fallback
  else none

/-- The policy of a name that stands in a document. -/
def policyOfName (range : Range) (name : String) : Except Problem Policy :=
  match policyOfName? name with
  | some policy => .ok policy
  | none => .error ⟨range, .unknownVariant name⟩

/-- What is wrong with the item that the name of a policy stands for: it has to be
empty. -/
def contentFault? : Toml.Item → Option Cause
  | .tables [] | .table (.mk _ _ []) | .value (.array _ []) | .value (.inlineTable _ []) => none
  | .tables _ => some .arrayNotEmpty
  | .table _ | .value (.array _ _) | .value (.inlineTable _ _) => some .tableNotEmpty
  | .value (.string _ _) => some (.notATable "string")
  | .value (.integer _ _) => some (.notATable "integer")
  | .value (.float _ _) => some (.notATable "float")
  | .value (.boolean _ _) => some (.notATable "boolean")
  | .value (.datetime _ _) => some (.notATable "datetime")

/-- The policy that a table names by its only key. -/
def policyOfEntries (around : Range) : List (Toml.Key × Toml.Item) → Except Problem Policy
  | [] => .error ⟨around, .noElement⟩
  | [(key, item)] => do
    let policy ← policyOfName key.range key.text
    match contentFault? item with
    | none => return policy
    | some cause => .error ⟨item.range?.getD around, cause⟩
  | _ :: _ :: _ => .error ⟨around, .severalElements⟩

/-- The policy of a setting, given the range of its key. -/
def policyOfItem (keyRange : Range) (item : Toml.Item) : Except Problem Policy :=
  let around := item.range?.getD keyRange
  match item with
  | .value (.string _ name) => policyOfName around name
  | .value (.inlineTable _ entries) =>
    policyOfEntries around (entries.map fun e => (e.1, .value e.2))
  | .table t => policyOfEntries around t.entries
  | _ => .error ⟨around, .neitherStringNorTable⟩

/-- The policy of a document.  Its entries are looked at in order, and the first
that is wrong decides. -/
def policyOfTable (t : Toml.Table) : Except Problem Policy :=
  t.entries.foldlM
    (fun _ (key, item) =>
      if key.text = policyKey then policyOfItem key.range item
      else .error ⟨key.range, .unknownField key.text⟩)
    .raise

/-! ## telling a problem -/

/-- A problem with the line of the document that it lies in. -/
def Problem.text (p : Problem) (source : List Char) : String :=
  let (before, after) := (Text.cut? source p.range.start).getD ([], source)
  let place := Place.ofBefore before
  let content := Place.lastLine before ++ Place.restOfLine after
  let number := toString place.line
  let gutter := List.replicate (number.length + 1) ' '
  let marked := max 1 (min p.range.len (Text.byteLength content - (place.column - 1)))
  "invalid runtime configuration: TOML parse error at " ++ place.text ++ "\n"
    ++ String.ofList gutter ++ "|\n"
    ++ number ++ " | " ++ String.ofList content ++ "\n"
    ++ String.ofList (gutter ++ '|' :: List.replicate place.column ' '
      ++ List.replicate marked '^') ++ "\n"
    ++ p.cause.message ++ "\n"

/-! ## reading -/

/-- Why a text is no configuration. -/
inductive Refusal where
  /-- It is not a TOML document. -/
  | notToml
  | problem (text : String)
deriving DecidableEq

/-- The policy that a text configures, with the reader of documents that is given. -/
def readWith (parse : List Char → Option Toml.Table) (text : String) : Except Refusal Policy :=
  match parse text.toList with
  | none => .error .notToml
  | some table =>
    match policyOfTable table with
    | .ok policy => .ok policy
    | .error p => .error (.problem (p.text text.toList))

/-- The policy that a text configures. -/
def read (text : String) : Except Refusal Policy := readWith Toml.read? text

end Config

end FieldScript
