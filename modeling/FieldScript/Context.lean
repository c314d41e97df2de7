import FieldScript.Store
import FieldScript.Error

/-!
# FieldScript.Context

The state that programs run in.

A context holds the library's variables, the variables of its base scope and a
scope for every block that is being executed.  The library has scope id 0 and the
base scope id 1; a block gets an id that was never used before.  Looking up a name
goes from the innermost block outward and ends at the library; declaring touches
the current scope alone, and assigning replaces the innermost binding of the name
unless that binding is the library's.
-/

namespace FieldScript

/-! ## parts -/

/-- What a call of a native function with unsuitable arguments comes to. -/
inductive Policy where
  /-- The call fails. -/
  | raise
  /-- The call answers the function's fallback value, if it has one. -/
  | fallback
deriving DecidableEq

/-- The variables of one scope. -/
structure Scope where
  id : Nat
  vars : Bindings Located

namespace Scope

def libraryId : Nat := 0

def baseId : Nat := 1

end Scope

/-- The variables and calls that are alive. -/
structure Frames where
  /-- The variables of the library; no operation changes them. -/
  library : Bindings Located
  /-- The variables of the base scope, which outlive every program. -/
  base : Bindings Located
  /-- The scopes of the blocks being executed, innermost first. -/
  blocks : List Scope
  /-- The calls in progress, latest first. -/
  calls : List CallEntry

/-- The frames, how malformed calls are treated, and how many scopes there were. -/
structure Context extends Frames where
  policy : Policy
  /-- The latest scope id given out. -/
  counter : Nat

namespace Frames

/-- The alive scopes from the current one down to the library. -/
def scopes (f : Frames) : List Scope :=
  f.blocks ++ [⟨Scope.baseId, f.base⟩, ⟨Scope.libraryId, f.library⟩]

/-- The scope that declarations go to. -/
def current (f : Frames) : Scope :=
  match f.blocks with
  | [] => ⟨Scope.baseId, f.base⟩
  | scope :: _ => scope

/-- The calls in progress, oldest first. -/
def history (f : Frames) : List CallEntry := f.calls.reverse

/-- The binding that a name has in the innermost scope that binds it. -/
def get? (f : Frames) (name : String) : Option Located :=
  (f.blocks.findSome? (·.vars.get? name)).or ((f.base.get? name).or (f.library.get? name))

/-- Looking up goes through the alive scopes in order. -/
theorem get?_eq_findSome?_scopes (f : Frames) (name : String) :
    f.get? name = f.scopes.findSome? (·.vars.get? name) := by
  simp only [get?, scopes, List.findSome?_append, List.findSome?_cons, List.findSome?_nil]
  cases f.base.get? name <;> cases f.library.get? name <;> rfl

/-- The current scope is the innermost one. -/
theorem scopes_eq_current_cons (f : Frames) : ∃ outer, f.scopes = f.current :: outer := by
  cases h : f.blocks <;> simp [scopes, current, h]

end Frames

namespace Context

/-- A context in which nothing has happened yet. -/
def new (policy : Policy) (library : Bindings Located) : Context where
  policy := policy
  library := library
  base := ∅
  blocks := []
  counter := Scope.baseId
  calls := []

/-! ## scopes -/

/-- Opens the scope of a block. -/
def enterBlock (c : Context) : Context :=
  { c with blocks := ⟨c.counter + 1, ∅⟩ :: c.blocks, counter := c.counter + 1 }

/-- Drops the scope of the innermost block. -/
def leaveBlock (c : Context) : Context := { c with blocks := c.blocks.tail }

/-- Drops all blocks and calls, as a failed program does.  Variables of the base
scope stay, and so does the count of scopes. -/
def reset (c : Context) : Context := { c with blocks := [], calls := [] }

/-! ## calls -/

def enterCall (c : Context) (entry : CallEntry) : Context :=
  { c with calls := entry :: c.calls }

/-- Drops the latest call. -/
def leaveCall (c : Context) : Context := { c with calls := c.calls.tail }

/-- The error that arises now: it keeps the calls in progress. -/
def error (c : Context) (location : Location) (cause : Cause) (infos : List Info) :
    RuntimeError :=
  ⟨location, cause, c.history, infos⟩

/-! ## variables -/

/-- Binds a name in the current scope. -/
def declare (c : Context) (name : String) (value : Located) : Context :=
  match c.blocks with
  | [] => { c with base := c.base.insert name value }
  | scope :: outer =>
    { c with blocks := { scope with vars := scope.vars.insert name value } :: outer }

/-- Replaces the value of a name in the first of the scopes that binds it, if one
does. -/
def replaceFirst (name : String) (value : Located) : List Scope → List Scope
  | [] => []
  | scope :: outer =>
    if scope.vars.contains name then
      { scope with vars := scope.vars.insert name value } :: outer
    else scope :: replaceFirst name value outer

/-- What an assignment comes to. -/
inductive Assignment where
  | done (context : Context)
  /-- Only the library binds the name. -/
  | libraryItem
  | unbound

/-- Gives a new value to the innermost binding of a name.  A name that only the
library binds cannot be assigned to. -/
def assign (c : Context) (name : String) (value : Located) : Assignment :=
  if c.blocks.any (·.vars.contains name) then
    .done { c with blocks := replaceFirst name value c.blocks }
  else if c.base.contains name then .done { c with base := c.base.insert name value }
  else if c.library.contains name then .libraryItem
  else .unbound

/-! ## small laws -/

@[simp] theorem scopes_new (policy : Policy) (library : Bindings Located) :
    (new policy library).scopes = [⟨Scope.baseId, ∅⟩, ⟨Scope.libraryId, library⟩] := rfl

@[simp] theorem scopes_enterBlock (c : Context) :
    c.enterBlock.scopes = ⟨c.counter + 1, ∅⟩ :: c.scopes := rfl

@[simp] theorem leaveBlock_enterBlock_blocks (c : Context) :
    c.enterBlock.leaveBlock.blocks = c.blocks := rfl

@[simp] theorem scopes_reset (c : Context) :
    c.reset.scopes = [⟨Scope.baseId, c.base⟩, ⟨Scope.libraryId, c.library⟩] := rfl

@[simp] theorem leaveCall_enterCall (c : Context) (entry : CallEntry) :
    (c.enterCall entry).leaveCall = c := rfl

@[simp] theorem history_enterCall (c : Context) (entry : CallEntry) :
    (c.enterCall entry).history = c.history ++ [entry] := by
  simp [Frames.history, enterCall]

/-- A declared name is found, and every other name as before. -/
theorem get?_declare (c : Context) (name other : String) (value : Located) :
    (c.declare name value).get? other =
      if other = name then some value else c.get? other := by
  cases h : c.blocks <;> by_cases ho : other = name <;>
    simp [declare, Frames.get?, List.findSome?_cons, h, ho]

end Context

end FieldScript
