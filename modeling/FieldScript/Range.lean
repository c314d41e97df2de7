/-!
# FieldScript.Range

Where a piece of a program was written.

A `Range` is a stretch of program text counted in bytes.  An empty range marks
a piece that has no text, for instance one that was built directly; its start
then says nothing.  A `Location` is a range, or the name of the producer when a
value or a call does not stem from program text at all.
-/

namespace FieldScript

/-! ## ranges -/

/-- A stretch of program text: the byte offset it starts at and its length in
bytes. -/
structure Range where
  start : Nat
  len : Nat
deriving DecidableEq

namespace Range

/-- The range of a piece that was not read from any text. -/
def synthetic : Range := ⟨0, 0⟩

/-- The offset just after the range.  A range that was read from a text ends within it, and the
bytes of a text are counted in 64 bits, so the sum is taken without a bound. -/
def stop (r : Range) : Nat := r.start + r.len

/-- A range without length is synthetic, wherever it starts. -/
def isSynthetic (r : Range) : Bool := r.len == 0

end Range

/-! ## locations -/

/-- The place a value comes from or a call was made at. -/
inductive Location where
  /-- A stretch of program text. -/
  | source (range : Range)
  /-- Something outside the program, named by a short description. -/
  | internal (producer : String)
deriving DecidableEq

namespace Location

instance : Inhabited Location := ⟨.source .synthetic⟩

/-- The text a location is shown as when no program text is at hand. -/
def text : Location → String
  | .source r =>
    if r.isSynthetic then "<no source location>"
    else "offset " ++ toString r.start ++ ".." ++ toString r.stop
  | .internal producer => "<native code: " ++ producer ++ ">"

end Location

end FieldScript
