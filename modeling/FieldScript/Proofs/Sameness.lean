import Mathlib.Tactic.Tauto
import FieldScript.Syntax.Same
import FieldScript.Value

/-!
# FieldScript.Proofs.Sameness

When programs are the same.

The comparison of programs is not the equality of trees: a not-a-number literal differs from
itself, and the two zeros are the same.  With the signs of zeros dropped (`Block.unsigned`) it is
equality again, among programs without a not-a-number (`Block.same_iff`).  So it is symmetric and
transitive, and reflexive just where there is no such literal.

The proofs follow both trees at once.  Nodes of different kinds are never the same, and they stay
different without the signs.
-/

namespace FieldScript

/-! ## numbers -/

namespace Binary64

/-- The number, with zero always positive. -/
def unsigned (x : Binary64) : Binary64 := if x.isZero then ⟨0⟩ else x

theorem isZero_unsigned (x : Binary64) : x.unsigned.isZero = x.isZero := by
  rw [unsigned]
  split
  · next h => rw [h]; rfl
  · rfl

/-- Zeros are not NaN. -/
theorem not_isNaN_of_isZero {x : Binary64} (h : x.isZero = true) : x.isNaN = false := by
  rw [isZero, beq_iff_eq] at h
  simp [isNaN, h]

/-- Dropping the sign of a zero makes no NaN and removes none. -/
theorem isNaN_unsigned (x : Binary64) : x.unsigned.isNaN = x.isNaN := by
  rw [unsigned]
  split
  · next h => rw [not_isNaN_of_isZero h]; rfl
  · rfl

/-- Dropping the sign of a zero twice is dropping it once. -/
@[simp] theorem unsigned_unsigned (x : Binary64) : x.unsigned.unsigned = x.unsigned := by
  rw [unsigned, isZero_unsigned]
  split
  · next h => rw [unsigned, if_pos h]
  · rfl

/-- Numbers are equal that are the same but for the sign of zero. -/
theorem beq_iff (x y : Binary64) :
    (x == y) = true ↔ x.isNaN = false ∧ y.isNaN = false ∧ x.unsigned = y.unsigned := by
  have hbits : x.bits = y.bits ↔ x = y := by cases x; cases y; simp
  have hzero (z : Binary64) (h : z.isZero = false) : (⟨0⟩ : Binary64) ≠ z := by
    rintro rfl
    cases h
  simp only [beq_def, Bool.and_eq_true, Bool.not_eq_true', Bool.or_eq_true, beq_iff_eq, hbits,
    and_assoc, unsigned]
  cases hx : x.isZero <;> cases hy : y.isZero
  · simp
  · have hne : x ≠ y := by rintro rfl; simp [hx] at hy
    simp [hne, (hzero x hx).symm]
  · have hne : x ≠ y := by rintro rfl; simp [hx] at hy
    simp [hne, hzero y hy]
  · simp

/-- Comparison does not see the sign of a zero. -/
theorem beq_unsigned (x y : Binary64) : (x.unsigned == y.unsigned) = (x == y) := by
  rw [Bool.eq_iff_iff, beq_iff, beq_iff]
  simp [isNaN_unsigned]

end Binary64

/-! ## literals -/

namespace Literal

def unsigned : Literal → Literal
  | .float x => .float x.unsigned
  | lit => lit

def isNaN : Literal → Bool
  | .float x => x.isNaN
  | _ => false

/-- Literals are the same if neither is NaN and they are equal but for the sign of a zero. -/
theorem same_iff (a b : Literal) :
    a.same b = true ↔ a.isNaN = false ∧ b.isNaN = false ∧ a.unsigned = b.unsigned := by
  cases a <;> cases b <;> simp [same, isNaN, unsigned, Binary64.beq_iff]

end Literal

/-! ## programs -/

mutual

/-- The literals of an expression, at any depth. -/
def Expr.literals : Expr → List Literal
  | .literal _ value => [value]
  | .variable _ _ => []
  | .field _ target _ => target.literals
  | .call _ callee _ args => callee.literals ++ Expr.literalsList args
  | .not _ inner => inner.literals
  | .eq _ left right => left.literals ++ right.literals

def Expr.literalsList : List Expr → List Literal
  | [] => []
  | e :: rest => e.literals ++ Expr.literalsList rest

end

mutual

/-- The literals of an instruction, at any depth. -/
def Instr.literals : Instr → List Literal
  | .declare _ _ init => init.literals
  | .assign _ _ value => value.literals
  | .setField _ target _ value => target.literals ++ value.literals
  | .classDecl _ _ => []
  | .ifThen _ test body => test.literals ++ body.literals
  | .ifElse _ test body otherwise => test.literals ++ (body.literals ++ otherwise.literals)
  | .eval _ expr => expr.literals

def Block.literals : Block → List Literal
  | .mk _ instrs => Instr.literalsList instrs

def Instr.literalsList : List Instr → List Literal
  | [] => []
  | instr :: rest => instr.literals ++ Instr.literalsList rest

end

mutual

/-- The expression, with every zero in it positive. -/
def Expr.unsigned : Expr → Expr
  | .literal r value => .literal r value.unsigned
  | .variable r name => .variable r name
  | .field r target name => .field r target.unsigned name
  | .call r callee ar args => .call r callee.unsigned ar (Expr.unsignedList args)
  | .not r inner => .not r inner.unsigned
  | .eq r left right => .eq r left.unsigned right.unsigned

def Expr.unsignedList : List Expr → List Expr
  | [] => []
  | e :: rest => e.unsigned :: Expr.unsignedList rest

end

mutual

/-- The instruction, with every zero in it positive. -/
def Instr.unsigned : Instr → Instr
  | .declare r name init => .declare r name init.unsigned
  | .assign r name value => .assign r name value.unsigned
  | .setField r target field value => .setField r target.unsigned field value.unsigned
  | .classDecl r name => .classDecl r name
  | .ifThen r test body => .ifThen r test.unsigned body.unsigned
  | .ifElse r test body otherwise => .ifElse r test.unsigned body.unsigned otherwise.unsigned
  | .eval r expr => .eval r expr.unsigned

def Block.unsigned : Block → Block
  | .mk r instrs => .mk r (Instr.unsignedList instrs)

def Instr.unsignedList : List Instr → List Instr
  | [] => []
  | instr :: rest => instr.unsigned :: Instr.unsignedList rest

end

/-- None of the literals is a not-a-number. -/
def NaNFree (literals : List Literal) : Prop := ∀ lit ∈ literals, lit.isNaN = false

@[simp] theorem nanFree_nil : NaNFree [] := nofun

@[simp] theorem nanFree_singleton (lit : Literal) : NaNFree [lit] ↔ lit.isNaN = false := by
  simp [NaNFree]

@[simp] theorem nanFree_append (l l' : List Literal) :
    NaNFree (l ++ l') ↔ NaNFree l ∧ NaNFree l' := by
  simp [NaNFree, or_imp, forall_and]

/-! ### the same but for signs of zeros -/

mutual

/-- Expressions are the same if both are free of NaN and they are equal but for the signs of zeros.
-/
theorem Expr.same_iff : (a b : Expr) →
    (a.same b = true ↔ NaNFree a.literals ∧ NaNFree b.literals ∧ a.unsigned = b.unsigned)
  | .literal _ lit, b => by
      cases b with
      | literal _ lit' =>
          simp only [same, literals, unsigned, Bool.and_eq_true, beq_iff_eq, Literal.same_iff,
            nanFree_singleton, Expr.literal.injEq]
          tauto
      | _ => simp [same, unsigned]
  | .variable _ _, b => by
      cases b with
      | «variable» => simp [same, literals, unsigned]
      | _ => simp [same, unsigned]
  | .field _ target _, b => by
      cases b with
      | field _ target' _ =>
          simp only [same, literals, unsigned, Bool.and_eq_true, beq_iff_eq,
            Expr.same_iff target target', Expr.field.injEq]
          tauto
      | _ => simp [same, unsigned]
  | .call _ callee _ args, b => by
      cases b with
      | call _ callee' _ args' =>
          simp only [same, literals, unsigned, Bool.and_eq_true, beq_iff_eq, nanFree_append,
            Expr.same_iff callee callee', Expr.sameList_iff args args', Expr.call.injEq]
          tauto
      | _ => simp [same, unsigned]
  | .not _ inner, b => by
      cases b with
      | not _ inner' =>
          simp only [same, literals, unsigned, Bool.and_eq_true, beq_iff_eq,
            Expr.same_iff inner inner', Expr.not.injEq]
          tauto
      | _ => simp [same, unsigned]
  | .eq _ left right, b => by
      cases b with
      | eq _ left' right' =>
          simp only [same, literals, unsigned, Bool.and_eq_true, beq_iff_eq, nanFree_append,
            Expr.same_iff left left', Expr.same_iff right right', Expr.eq.injEq]
          tauto
      | _ => simp [same, unsigned]

/-- The same of lists of expressions. -/
theorem Expr.sameList_iff : (as bs : List Expr) →
    (Expr.sameList as bs = true ↔ NaNFree (Expr.literalsList as) ∧
      NaNFree (Expr.literalsList bs) ∧ Expr.unsignedList as = Expr.unsignedList bs)
  | [], [] => by simp [sameList, literalsList]
  | [], _ :: _ | _ :: _, [] => by simp [sameList, unsignedList]
  | a :: as, b :: bs => by
      simp only [sameList, literalsList, unsignedList, Bool.and_eq_true, nanFree_append,
        Expr.same_iff a b, Expr.sameList_iff as bs, List.cons.injEq]
      tauto

end

mutual

/-- Instructions are the same if both are free of NaN and they are equal but for the signs of zeros.
-/
theorem Instr.same_iff : (a b : Instr) →
    (a.same b = true ↔ NaNFree a.literals ∧ NaNFree b.literals ∧ a.unsigned = b.unsigned)
  | .declare _ _ init, b => by
      cases b with
      | declare _ _ init' =>
          simp only [Instr.same, Instr.literals, Instr.unsigned, Bool.and_eq_true, beq_iff_eq,
            Expr.same_iff init init', Instr.declare.injEq]
          tauto
      | _ => simp [Instr.same, Instr.unsigned]
  | .assign _ _ value, b => by
      cases b with
      | assign _ _ value' =>
          simp only [Instr.same, Instr.literals, Instr.unsigned, Bool.and_eq_true, beq_iff_eq,
            Expr.same_iff value value', Instr.assign.injEq]
          tauto
      | _ => simp [Instr.same, Instr.unsigned]
  | .setField _ target _ value, b => by
      cases b with
      | setField _ target' _ value' =>
          simp only [Instr.same, Instr.literals, Instr.unsigned, Bool.and_eq_true, beq_iff_eq,
            nanFree_append,
            Expr.same_iff target target', Expr.same_iff value value', Instr.setField.injEq]
          tauto
      | _ => simp [Instr.same, Instr.unsigned]
  | .classDecl _ _, b => by
      cases b with
      | classDecl => simp [Instr.same, Instr.literals, Instr.unsigned]
      | _ => simp [Instr.same, Instr.unsigned]
  | .ifThen _ test body, b => by
      cases b with
      | ifThen _ test' body' =>
          simp only [Instr.same, Instr.literals, Instr.unsigned, Bool.and_eq_true, beq_iff_eq,
            nanFree_append, Expr.same_iff test test', Block.same_iff body body', Instr.ifThen.injEq]
          tauto
      | _ => simp [Instr.same, Instr.unsigned]
  | .ifElse _ test body otherwise, b => by
      cases b with
      | ifElse _ test' body' otherwise' =>
          simp only [Instr.same, Instr.literals, Instr.unsigned, Bool.and_eq_true, beq_iff_eq,
            nanFree_append, Expr.same_iff test test', Block.same_iff body body',
            Block.same_iff otherwise otherwise', Instr.ifElse.injEq]
          tauto
      | _ => simp [Instr.same, Instr.unsigned]
  | .eval _ expr, b => by
      cases b with
      | eval _ expr' =>
          simp only [Instr.same, Instr.literals, Instr.unsigned, Bool.and_eq_true, beq_iff_eq,
            Expr.same_iff expr expr', Instr.eval.injEq]
          tauto
      | _ => simp [Instr.same, Instr.unsigned]

/-- Blocks are the same that have no not-a-number and differ in the signs of zeros alone. -/
theorem Block.same_iff : (a b : Block) →
    (a.same b = true ↔ NaNFree a.literals ∧ NaNFree b.literals ∧ a.unsigned = b.unsigned)
  | .mk _ instrs, .mk _ instrs' => by
      simp only [Block.same, Block.literals, Block.unsigned, Bool.and_eq_true, beq_iff_eq,
        Instr.sameList_iff instrs instrs', Block.mk.injEq]
      tauto

/-- The same of lists of instructions. -/
theorem Instr.sameList_iff : (as bs : List Instr) →
    (Instr.sameList as bs = true ↔ NaNFree (Instr.literalsList as) ∧
      NaNFree (Instr.literalsList bs) ∧ Instr.unsignedList as = Instr.unsignedList bs)
  | [], [] => by simp [Instr.sameList, Instr.literalsList]
  | [], _ :: _ | _ :: _, [] => by simp [Instr.sameList, Instr.unsignedList]
  | a :: as, b :: bs => by
      simp only [Instr.sameList, Instr.literalsList, Instr.unsignedList, Bool.and_eq_true,
        nanFree_append, Instr.same_iff a b, Instr.sameList_iff as bs, List.cons.injEq]
      tauto

end

/-! ### the comparison as a relation -/

/-- Sameness of blocks is symmetric. -/
theorem Block.same_comm (a b : Block) : a.same b = b.same a := by
  rw [Bool.eq_iff_iff, same_iff, same_iff, eq_comm (a := a.unsigned)]
  tauto

/-- Sameness of blocks is transitive. -/
theorem Block.same_trans {a b c : Block} (hab : a.same b = true) (hbc : b.same c = true) :
    a.same c = true := by
  rw [same_iff] at hab hbc ⊢
  exact ⟨hab.1, hbc.2.1, hab.2.2.trans hbc.2.2⟩

/-- A block is the same as itself unless NaN occurs in it. -/
theorem Block.same_self (a : Block) : a.same a = true ↔ NaNFree a.literals := by
  rw [same_iff]
  tauto

end FieldScript
