/-!
# FieldScript.Text.Cut

Texts cut at byte offsets.

Offsets count bytes and a text is a list of characters, so an offset is a place to
cut only if no character straddles it.
-/

namespace FieldScript

namespace Text

/-- The length of a text in bytes. -/
def byteLength : List Char → Nat
  | [] => 0
  | c :: rest => c.utf8Size + byteLength rest

/-- The text before and after an offset, if the offset lies between characters. -/
def cut? : List Char → Nat → Option (List Char × List Char)
  | cs, 0 => some ([], cs)
  | [], _ + 1 => none
  | c :: rest, n + 1 =>
    if c.utf8Size ≤ n + 1 then
      match cut? rest (n + 1 - c.utf8Size) with
      | some (before, after) => some (c :: before, after)
      | none => none
    else none

@[simp] theorem cut?_zero (cs : List Char) : cut? cs 0 = some ([], cs) := by
  cases cs <;> rfl

theorem byteLength_append (a b : List Char) :
    byteLength (a ++ b) = byteLength a + byteLength b := by
  induction a with
  | nil => simp [byteLength]
  | cons c rest ih => simp [byteLength, ih, Nat.add_assoc]

/-- A cut loses nothing and is made at the offset asked for. -/
theorem eq_append_of_cut? {cs before after : List Char} {n : Nat}
    (h : cut? cs n = some (before, after)) : cs = before ++ after ∧ byteLength before = n := by
  induction cs generalizing before after n with
  | nil =>
    cases n <;> simp_all [cut?, byteLength]
  | cons c rest ih =>
    cases n with
    | zero => simp_all [cut?, byteLength]
    | succ n =>
      simp only [cut?] at h
      split at h
      · next hc =>
        split at h
        · next heq =>
          obtain ⟨rfl, rfl⟩ := Prod.mk.inj (Option.some.inj h)
          obtain ⟨rfl, hb⟩ := ih heq
          exact ⟨rfl, by simp only [byteLength, hb]; omega⟩
        · simp at h
      · simp at h

/-- Any way to part a text is a cut at the length of its first part. -/
theorem cut?_append (before after : List Char) :
    cut? (before ++ after) (byteLength before) = some (before, after) := by
  induction before with
  | nil => simp [byteLength]
  | cons c rest ih =>
    obtain ⟨n, hn⟩ : ∃ n, c.utf8Size + byteLength rest = n + 1 :=
      ⟨c.utf8Size + byteLength rest - 1, by have := c.utf8Size_pos; omega⟩
    have hle : c.utf8Size ≤ n + 1 := by omega
    have hsub : n + 1 - c.utf8Size = byteLength rest := by omega
    simp only [byteLength, hn, List.cons_append, cut?, hle, ite_true, hsub, ih]

end Text

end FieldScript
