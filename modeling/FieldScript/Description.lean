import FieldScript.Rendering

/-!
# FieldScript.Description

What can be told about a value from outside.

A brief description is the type and the text of a value.  A full one adds where a
class was declared, and the class and the fields of an instance, each field with a
brief description in turn.
-/

namespace FieldScript

/-- The type and the text of a value. -/
structure Brief where
  type : ValueType
  text : String
deriving DecidableEq

/-- What is told beyond type and text. -/
inductive Detail where
  | none
  | cls (declaredAt : Range)
  | inst (cls : String) (fields : List (String × Brief))
deriving DecidableEq

structure Description where
  brief : Brief
  detail : Detail
deriving DecidableEq

namespace Store

def brief (s : Store) (value : Value) : Brief := ⟨value.type, s.text value⟩

/-- Names with the brief descriptions of their values, in order. -/
def briefs (s : Store) (entries : List (String × Value)) : List (String × Brief) :=
  entries.map fun p => (p.1, s.brief p.2)

def detail (s : Store) : Value → Detail
  | .cls ref => .cls (s.cls ref).declaredAt
  | .inst ref => .inst (s.classOf ref).name (s.briefs (s.inst ref).fields.entries)
  | .null | .bool _ | .int _ | .float _ | .string _ | .fn _ => .none

def describe (s : Store) (value : Value) : Description := ⟨s.brief value, s.detail value⟩

end Store

end FieldScript
