import FieldScript.Store
import FieldScript.Decimal.Layout
import FieldScript.Text.Quoted

/-!
# FieldScript.Rendering

Values as text.

An instance shows its class and its fields, and an instance inside it shows its
class alone: instances may refer to each other in circles, so one level is all
that is ever opened.
-/

namespace FieldScript

/-! ## functions -/

def Param.text (p : Param) : String := p.name ++ ": " ++ p.type.text

/-- The signature of a function. -/
def Function.text (f : Function) : String :=
  "fn " ++ f.name ++ "(" ++ ", ".intercalate (f.params.map Param.text) ++ ") -> " ++ f.result.text

/-! ## values -/

def boolText : Bool → String
  | true => "true"
  | false => "false"

namespace Store

/-- A value that is not an instance or stands inside one. -/
def closedText (s : Store) : Value → String
  | .null => "null"
  | .bool b => boolText b
  | .int i => toString i.toInt
  | .float x => x.text
  | .string t => Text.quote t
  | .cls c => "<class " ++ (s.cls c).name ++ ">"
  | .fn f => (s.fn f).text
  | .inst i => (s.classOf i).name ++ " \x7b ... \x7d"

/-- The fields of an instance, in order. -/
def fieldTexts (s : Store) (ref : InstanceRef) : List String :=
  (s.inst ref).fields.entries.map fun p => p.1 ++ ": " ++ s.closedText p.2

/-- An instance with its fields. -/
def openText (s : Store) (ref : InstanceRef) : String :=
  match s.fieldTexts ref with
  | [] => (s.classOf ref).name ++ " \x7b\x7d"
  | fields => (s.classOf ref).name ++ " \x7b " ++ ", ".intercalate fields ++ " \x7d"

/-- A value. -/
def text (s : Store) : Value → String
  | .inst ref => s.openText ref
  | value => s.closedText value

/-- A value, with a text as it is and not in quotes. -/
def rawText (s : Store) : Value → String
  | .string t => t
  | value => s.text value

/-! ## small laws -/

/-- Only the class and the fields of the instance itself are looked at. -/
theorem text_inst (s : Store) (ref : InstanceRef) : s.text (.inst ref) = s.openText ref := rfl

theorem text_of_type_ne {s : Store} {value : Value} (h : value.type ≠ .inst) :
    s.text value = s.closedText value := by
  cases value <;> simp_all [text, Value.type]

end Store

end FieldScript
