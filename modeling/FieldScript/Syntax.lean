import FieldScript.Range
import FieldScript.Binary64

/-!
# FieldScript.Syntax

Programs as trees.

A program is a list of instructions.  Every node keeps the range it was read
from; a program that was put together directly has synthetic ranges throughout
(`FieldScript.Syntax.Unplaced`).  Ranges locate errors and values and have no
say in what a program does.
-/

namespace FieldScript

/-- A name as it stands in a program. -/
structure Name where
  range : Range
  text : String
deriving DecidableEq

/-- A value that is written out in a program. -/
inductive Literal where
  | null
  | bool (b : Bool)
  | int (i : Int64)
  | float (x : Binary64)
  | string (s : String)
deriving DecidableEq

/-- An expression.  The range always comes first and is that of the whole
expression; a call also keeps the range of its argument list. -/
inductive Expr where
  | literal (range : Range) (value : Literal)
  | variable (range : Range) (name : Name)
  /-- Reads a field of an instance. -/
  | field (range : Range) (target : Expr) (name : Name)
  /-- Calls a function, or a class to get an instance. -/
  | call (range : Range) (callee : Expr) (argsRange : Range) (args : List Expr)
  | not (range : Range) (inner : Expr)
  | eq (range : Range) (left right : Expr)

/-- The range of the whole expression. -/
def Expr.range : Expr → Range
  | .literal r _ | .variable r _ | .field r _ _ | .call r _ _ _ | .not r _ | .eq r _ _ => r

mutual

/-- An instruction. -/
inductive Instr where
  /-- Declares a variable in the current scope. -/
  | declare (range : Range) (name : Name) (init : Expr)
  /-- Gives a new value to a variable that exists. -/
  | assign (range : Range) (name : Name) (value : Expr)
  /-- Sets a field of an instance; the field need not exist yet. -/
  | setField (range : Range) (target : Expr) (field : Name) (value : Expr)
  | classDecl (range : Range) (name : Name)
  /-- Runs a block if the test holds; its value is that of the block. -/
  | ifThen (range : Range) (test : Expr) (body : Block)
  /-- Runs one of two blocks; its value is that of the block run. -/
  | ifElse (range : Range) (test : Expr) (body otherwise : Block)
  /-- Evaluates an expression; the only simple instruction with a value. -/
  | eval (range : Range) (expr : Expr)

/-- A list of instructions that runs in a scope of its own. -/
inductive Block where
  | mk (range : Range) (instrs : List Instr)

end

/-- A program runs in the scope that is current when it starts. -/
abbrev Program := List Instr

/-- The instructions of a block. -/
def Block.instrs : Block → List Instr
  | .mk _ instrs => instrs

end FieldScript
