import FieldScript.Syntax

/-!
# FieldScript.Syntax.Same

Equality of programs.

Two programs are the same if they are so node by node, ranges included.  Numbers
compare as numbers: a program with a not-a-number literal in it differs even from
itself, and a zero may have either sign.
-/

namespace FieldScript

/-- The same value written out. -/
def Literal.same : Literal → Literal → Bool
  | .null, .null => true
  | .bool a, .bool b => a == b
  | .int a, .int b => a == b
  | .float a, .float b => a == b
  | .string a, .string b => a == b
  | _, _ => false

/-! ## expressions -/

mutual

def Expr.same : Expr → Expr → Bool
  | .literal r a, .literal s b => r == s && a.same b
  | .variable r a, .variable s b => r == s && a == b
  | .field r t a, .field s u b => r == s && t.same u && a == b
  | .call r f ar as, .call s g br bs => r == s && f.same g && ar == br && Expr.sameList as bs
  | .not r a, .not s b => r == s && a.same b
  | .eq r a b, .eq s c d => r == s && a.same c && b.same d
  | _, _ => false

def Expr.sameList : List Expr → List Expr → Bool
  | [], [] => true
  | a :: as, b :: bs => a.same b && Expr.sameList as bs
  | _, _ => false

end

/-! ## instructions -/

mutual

def Instr.same : Instr → Instr → Bool
  | .declare r n a, .declare s m b => r == s && n == m && a.same b
  | .assign r n a, .assign s m b => r == s && n == m && a.same b
  | .setField r t f a, .setField s u g b => r == s && t.same u && f == g && a.same b
  | .classDecl r n, .classDecl s m => r == s && n == m
  | .ifThen r t a, .ifThen s u b => r == s && t.same u && a.same b
  | .ifElse r t a c, .ifElse s u b d => r == s && t.same u && a.same b && c.same d
  | .eval r a, .eval s b => r == s && a.same b
  | _, _ => false

def Block.same : Block → Block → Bool
  | .mk r as, .mk s bs => r == s && Instr.sameList as bs

def Instr.sameList : List Instr → List Instr → Bool
  | [], [] => true
  | a :: as, b :: bs => a.same b && Instr.sameList as bs
  | _, _ => false

end

/-- The same program. -/
def Program.same (a b : Program) : Bool := Instr.sameList a b

end FieldScript
