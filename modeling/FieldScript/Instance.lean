import FieldScript.Value
import FieldScript.Bindings

/-!
# FieldScript.Instance

Instances and their fields.

An instance belongs to a class and has the fields that were set on it, in the order
in which they were first set.  The class says nothing about which fields there
are: a field exists once it has been set, even to null, and never goes away.
-/

namespace FieldScript

/-- An instance: its class and the fields set so far. -/
structure Instance where
  cls : ClassRef
  fields : Bindings Value

instance : Inhabited Instance := ⟨⟨⟨0⟩, ∅⟩⟩

namespace Instance

/-- The value of a field; a field that was never set has none. -/
def lookup? (i : Instance) (field : String) : Option Value := i.fields.get? field

/-- Is the field set, to whatever value? -/
def hasField (i : Instance) (field : String) : Bool := (i.lookup? field).isSome

/-- Sets a field, whether or not it exists. -/
def setField (i : Instance) (field : String) (value : Value) : Instance :=
  { i with fields := i.fields.insert field value }

@[simp] theorem lookup?_setField (i : Instance) (field other : String) (value : Value) :
    (i.setField field value).lookup? other =
      if other = field then some value else i.lookup? other :=
  Bindings.get?_insert i.fields field other value

theorem hasField_setField (i : Instance) (field other : String) (value : Value) :
    (i.setField field value).hasField other = (other == field || i.hasField other) := by
  by_cases h : other = field <;> simp [hasField, h]

end Instance

/-! ## requests -/

/-- What can be asked of an instance. -/
inductive FieldRequest where
  | set (field : String) (value : Value)
  | lookup (field : String)
  | has (field : String)
  | list

inductive FieldReply where
  /-- A field was set; this was its value before. -/
  | previous (value : Option Value)
  /-- The value of the field that was looked up. -/
  | found (value : Option Value)
  | answer (holds : Bool)
  /-- All fields in order. -/
  | fields (entries : List (String × Value))
deriving DecidableEq

namespace Instance

/-- The reply to a request, and the instance afterwards. -/
def reply (i : Instance) : FieldRequest → FieldReply × Instance
  | .set field value => (.previous (i.lookup? field), i.setField field value)
  | .lookup field => (.found (i.lookup? field), i)
  | .has field => (.answer (i.hasField field), i)
  | .list => (.fields i.fields.entries, i)

/-- The replies to requests, one after the other. -/
def replies (i : Instance) : List FieldRequest → List FieldReply
  | [] => []
  | request :: rest =>
    let (r, i') := i.reply request
    r :: i'.replies rest

/-- The instance after requests. -/
def afterRequests (i : Instance) : List FieldRequest → Instance
  | [] => i
  | request :: rest => (i.reply request).2.afterRequests rest

end Instance

end FieldScript
