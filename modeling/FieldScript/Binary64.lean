/-!
# FieldScript.Binary64

Double-precision numbers as their 64 bits.

The language computes nothing with such numbers: they are carried, compared and
shown.  The bits are therefore all there is to a number, and comparison follows
the IEEE rule, in which a not-a-number differs from itself and the two zeros are
equal.
-/

namespace FieldScript

/-- A double-precision number, given by its bits: the sign, 11 bits of exponent
and 52 bits of fraction. -/
structure Binary64 where
  bits : UInt64
deriving DecidableEq

namespace Binary64

instance : Inhabited Binary64 := ⟨⟨0⟩⟩

/-! ## parts -/

/-- The bit of the sign. -/
def signBit : Nat := 0x8000000000000000

/-- The magnitude of the infinities; above it are the not-a-numbers. -/
def infinity : Nat := 0x7FF0000000000000

/-- The number without its sign, as the natural number its bits spell. -/
def magnitude (x : Binary64) : Nat := x.bits.toNat % signBit

def isNegative (x : Binary64) : Bool := signBit ≤ x.bits.toNat

/-! ## classes -/

def isZero (x : Binary64) : Bool := x.magnitude == 0

def isInfinite (x : Binary64) : Bool := x.magnitude == infinity

def isNaN (x : Binary64) : Bool := infinity < x.magnitude

/-! ## comparison -/

/-- Equality of numbers: equal bits or two zeros, and never with a
not-a-number. -/
protected def beq (x y : Binary64) : Bool :=
  !x.isNaN && !y.isNaN && (x.bits == y.bits || (x.isZero && y.isZero))

instance : BEq Binary64 := ⟨Binary64.beq⟩

theorem beq_def (x y : Binary64) :
    (x == y) = (!x.isNaN && !y.isNaN && (x.bits == y.bits || (x.isZero && y.isZero))) := rfl

/-- A number equals itself unless it is a not-a-number. -/
theorem beq_self (x : Binary64) : (x == x) = !x.isNaN := by
  simp [beq_def]

end Binary64

end FieldScript
