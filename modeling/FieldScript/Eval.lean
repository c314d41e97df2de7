import FieldScript.Exec

/-!
# FieldScript.Eval

Running programs.

Expressions, instructions, blocks and programs are run by recursion on their
syntax.  What a call of a function does is a parameter, `Caller`, because a
function may run further programs; `FieldScript.Host` ties that knot.

Operands are evaluated from left to right, the callee before the arguments and the
target of a field before its new value.  A check on an operand comes after the
evaluation of all of them.
-/

namespace FieldScript

/-- What it means to call a function from some place with arguments. -/
abbrev Caller := Location → FunctionRef → List Located → Exec Value

/-! ## fields -/

/-- The instance that a value refers to; any other value has no fields. -/
def expectInstance (target : Value) (range : Range) : Exec InstanceRef :=
  match target with
  | .inst ref => pure ref
  | other => Exec.fail (.source range) (.notAnInstance other.type) []

/-- What goes with the error on an absent field: advice, and where the class stems
from if that is known. -/
def missingFieldInfos (cls : ClassInfo) : List Info :=
  ⟨.tip, "use 'hasField' to check if a field exists before reading it"⟩ ::
    if cls.declaredAt.isSynthetic then []
    else
      [⟨.note, "class '" ++ cls.name ++ "' is declared at "
        ++ (Location.source cls.declaredAt).text⟩]

/-- Reads a field.  An absent field is an error, which no program can catch. -/
def readField (target : Value) (targetRange : Range) (field : Name) : Exec Value := do
  let ref ← expectInstance target targetRange
  let s ← Exec.store
  match s.field? ref field.text with
  | some value => return value
  | none =>
    let cls := s.classOf ref
    Exec.emit (.fieldMissed ref cls field)
    Exec.fail (.source field.range) (.undefinedField cls.name field.text) (missingFieldInfos cls)

/-- Sets a field, whether or not it exists. -/
def writeField (target : Value) (targetRange : Range) (field : Name) (value : Value) :
    Exec Unit := do
  let ref ← expectInstance target targetRange
  Exec.emit (.fieldSet ref field.text value)

/-! ## variables -/

def readVariable (name : Name) : Exec Value := do
  match (← Exec.context).get? name.text with
  | some located => return located.value
  | none => Exec.fail (.source name.range) (.undefinedVariable name.text) []

/-- Gives a new value to a variable that exists and is not the library's. -/
def assignVariable (name : Name) (value : Located) : Exec Unit := do
  match (← Exec.context).assign name.text value with
  | .done _ => Exec.emit (.assigned name.text value)
  | .libraryItem =>
    Exec.fail (.source name.range) (.libraryItemAssignment name.text)
      [⟨.tip, "declare a new variable instead to shadow the native item"⟩]
  | .unbound => Exec.fail (.source name.range) (.undefinedVariable name.text) []

/-! ## classes and calls -/

/-- Declares a class under its name. -/
def declareClass (name : Name) : Exec Unit := do
  let ref ← Exec.nextClass
  Exec.emit (.classCreated ⟨name.text, name.range⟩)
  Exec.emit (.declared name.text ⟨.cls ref, .source name.range⟩)

/-- Makes an instance without fields.  A class takes no arguments. -/
def instantiate (range : Range) (cls : ClassRef) (args : List Located) : Exec Value := do
  let s ← Exec.store
  match args with
  | _ :: _ =>
    Exec.fail (.source range) (.argument (.wrongArity (s.cls cls).name 0 args.length)) []
  | [] =>
    let ref ← Exec.nextInstance
    Exec.emit (.instantiated cls (s.cls cls).name)
    return .inst ref

/-- Calls a value whose arguments are evaluated. -/
def callValue (call : Caller) (range calleeRange : Range) (callee : Value)
    (args : List Located) : Exec Value :=
  match callee with
  | .fn ref => call (.source range) ref args
  | .cls ref => instantiate range ref args
  | other => Exec.fail (.source calleeRange) (.notCallable other.type) []

/-! ## expressions -/

/-- A boolean operand. -/
def expectBool (range : Range) (value : Value) : Exec Bool :=
  match value with
  | .bool b => pure b
  | other => Exec.fail (.source range) (.notABoolean other.type) []

mutual

/-- The value of an expression. -/
def Expr.eval (call : Caller) : Expr → Exec Value
  | .literal _ value => pure value.value
  | .variable _ name => readVariable name
  | .field _ target name => do
    let value ← target.eval call
    readField value target.range name
  | .call range callee _ args => do
    let fn ← callee.eval call
    let values ← Expr.evalList call args
    callValue call range callee.range fn values
  | .not _ inner => do
    let value ← inner.eval call
    return .bool (!(← expectBool inner.range value))
  | .eq _ left right => do
    let a ← left.eval call
    let b ← right.eval call
    return .bool (a.same b)

/-- The values of expressions in order, each with the place it comes from. -/
def Expr.evalList (call : Caller) : List Expr → Exec (List Located)
  | [] => pure []
  | e :: rest => do
    let value ← e.eval call
    let values ← Expr.evalList call rest
    return ⟨value, .source e.range⟩ :: values

end

/-! ## instructions -/

mutual

/-- Runs an instruction and answers its value, if it has one. -/
def Instr.run (call : Caller) : Instr → Exec (Option Located)
  | .declare _ name init => do
    let value ← init.eval call
    Exec.emit (.declared name.text ⟨value, .source init.range⟩)
    return none
  | .assign _ name expr => do
    let value ← expr.eval call
    assignVariable name ⟨value, .source expr.range⟩
    return none
  | .setField _ target field expr => do
    let owner ← target.eval call
    let value ← expr.eval call
    writeField owner target.range field value
    return none
  | .classDecl _ name => do
    declareClass name
    return none
  | .ifThen _ test body => do
    let value ← test.eval call
    if ← expectBool test.range value then body.run call else return none
  | .ifElse _ test body otherwise => do
    let value ← test.eval call
    if ← expectBool test.range value then body.run call else otherwise.run call
  | .eval _ expr => do
    let value ← expr.eval call
    return some ⟨value, .source expr.range⟩

/-- Runs a block in a scope of its own. -/
def Block.run (call : Caller) : Block → Exec (Option Located)
  | .mk _ instrs => Exec.inBlock (Instr.runList call none instrs)

/-- Runs instructions in the current scope.  The value is that of the last one;
`latest` stands for it when there are none. -/
def Instr.runList (call : Caller) (latest : Option Located) : List Instr → Exec (Option Located)
  | [] => pure latest
  | instr :: rest => do
    let value ← instr.run call
    Instr.runList call value rest

end

/-! ## programs -/

/-- Runs a program in the current scope of the context.  If it fails, the context
goes back to its base scope, whatever was running above. -/
def Program.run (call : Caller) (program : Program) : Exec (Option Located) := do
  Exec.emit (.programStarted program.length)
  match ← Exec.settle (Instr.runList call none program) with
  | .ok value =>
    Exec.emit .programCompleted
    return value
  | .error e =>
    Exec.emit (.programAborted e)
    throw (.error e)

end FieldScript
