import FieldScript.Syntax

/-!
# FieldScript.Syntax.Unplaced

Programs without ranges.

A program that is put together directly, and not read from a text, has a synthetic
range at every node.  `unplaced` makes such a program of any other.
-/

namespace FieldScript

def Name.unplaced (n : Name) : Name := ⟨.synthetic, n.text⟩

/-! ## expressions -/

mutual

def Expr.unplaced : Expr → Expr
  | .literal _ value => .literal .synthetic value
  | .variable _ name => .variable .synthetic name.unplaced
  | .field _ target name => .field .synthetic target.unplaced name.unplaced
  | .call _ callee _ args =>
    .call .synthetic callee.unplaced .synthetic (Expr.unplacedList args)
  | .not _ inner => .not .synthetic inner.unplaced
  | .eq _ left right => .eq .synthetic left.unplaced right.unplaced

def Expr.unplacedList : List Expr → List Expr
  | [] => []
  | e :: rest => e.unplaced :: Expr.unplacedList rest

end

/-! ## instructions -/

mutual

def Instr.unplaced : Instr → Instr
  | .declare _ name init => .declare .synthetic name.unplaced init.unplaced
  | .assign _ name value => .assign .synthetic name.unplaced value.unplaced
  | .setField _ target field value =>
    .setField .synthetic target.unplaced field.unplaced value.unplaced
  | .classDecl _ name => .classDecl .synthetic name.unplaced
  | .ifThen _ test body => .ifThen .synthetic test.unplaced body.unplaced
  | .ifElse _ test body otherwise =>
    .ifElse .synthetic test.unplaced body.unplaced otherwise.unplaced
  | .eval _ expr => .eval .synthetic expr.unplaced

def Block.unplaced : Block → Block
  | .mk _ instrs => .mk .synthetic (Instr.unplacedList instrs)

def Instr.unplacedList : List Instr → List Instr
  | [] => []
  | instr :: rest => instr.unplaced :: Instr.unplacedList rest

end

/-- The program without its ranges. -/
def Program.unplaced (p : Program) : Program := Instr.unplacedList p

/-! ## what it leaves -/

@[simp] theorem Expr.range_unplaced (e : Expr) : e.unplaced.range = .synthetic := by
  cases e <;> rfl

end FieldScript
