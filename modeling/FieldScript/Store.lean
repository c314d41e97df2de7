import FieldScript.Instance
import FieldScript.Function

/-!
# FieldScript.Store

Classes, instances and functions that running programs refer to.

Each kind has its own table, a reference is a position in it, and a new entry goes
to the end: no reference is ever given out twice, and an entry never goes away.
Classes and functions never change; an instance only gains fields or gets new
values for those it has.
-/

namespace FieldScript

/-! ## classes -/

/-- A class: its name and where it was declared. -/
structure ClassInfo where
  name : String
  declaredAt : Range
deriving DecidableEq

instance : Inhabited ClassInfo := ⟨⟨"", .synthetic⟩⟩

/-! ## stores -/

/-- Everything that values can refer to, and how often the clock was read. -/
structure Store where
  classes : Array ClassInfo
  instances : Array Instance
  functions : Array Function
  clockReads : Nat

namespace Store

instance : EmptyCollection Store := ⟨⟨#[], #[], #[], 0⟩⟩

instance : Inhabited Store := ⟨∅⟩

/-! ## reading -/

/-- The class referred to.  A reference that no store has given out reads as a
nameless class. -/
def cls (s : Store) (ref : ClassRef) : ClassInfo := (s.classes[ref.index]?).getD default

def inst (s : Store) (ref : InstanceRef) : Instance := (s.instances[ref.index]?).getD default

def fn (s : Store) (ref : FunctionRef) : Function := (s.functions[ref.index]?).getD default

/-- The class of an instance. -/
def classOf (s : Store) (ref : InstanceRef) : ClassInfo := s.cls (s.inst ref).cls

/-- The value of a field of an instance. -/
def field? (s : Store) (ref : InstanceRef) (name : String) : Option Value :=
  (s.inst ref).lookup? name

/-! ## growing -/

/-- The reference that the next class gets. -/
def nextClass (s : Store) : ClassRef := ⟨s.classes.size⟩

def nextInstance (s : Store) : InstanceRef := ⟨s.instances.size⟩

def nextFunction (s : Store) : FunctionRef := ⟨s.functions.size⟩

def addClass (s : Store) (info : ClassInfo) : Store :=
  { s with classes := s.classes.push info }

/-- Adds an instance of a class, without fields. -/
def addInstance (s : Store) (cls : ClassRef) : Store :=
  { s with instances := s.instances.push ⟨cls, ∅⟩ }

def addFunction (s : Store) (fn : Function) : Store :=
  { s with functions := s.functions.push fn }

/-- Sets a field of an instance. -/
def setField (s : Store) (ref : InstanceRef) (name : String) (value : Value) : Store :=
  { s with instances := s.instances.modify ref.index (·.setField name value) }

/-- Counts one more reading of the clock. -/
def countReading (s : Store) : Store := { s with clockReads := s.clockReads + 1 }

/-! ## what an addition changes -/

theorem cls_addClass_next (s : Store) (info : ClassInfo) :
    (s.addClass info).cls s.nextClass = info := by
  simp [cls, addClass, nextClass]

theorem inst_addInstance_next (s : Store) (cls : ClassRef) :
    (s.addInstance cls).inst s.nextInstance = ⟨cls, ∅⟩ := by
  simp [inst, addInstance, nextInstance]

theorem fn_addFunction_next (s : Store) (fn : Function) :
    (s.addFunction fn).fn s.nextFunction = fn := by
  simp [Store.fn, addFunction, nextFunction]

end Store

end FieldScript
