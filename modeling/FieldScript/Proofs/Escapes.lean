import Mathlib.Data.List.Chain
import FieldScript.Report.Piece

/-!
# FieldScript.Proofs.Escapes

Texts without their escape sequences.

Deleting escape sequences (`withoutEscapes`) looks ahead: what a text ends with may become a
sequence once something is put after it.  No sequence goes on across a character that has no
place inside one, so there a text can be parted and each side done by itself
(`withoutEscapes_append`).  Every sequence that is written with a style starts with such a
character and is itself deleted, and so the pieces of a report can be done one by one, if there
is such a character wherever a styled piece meets a plain one (`Piece.Apart`).
-/

namespace FieldScript

/-! ## deleting escape sequences -/

/-- A digit or a semicolon. -/
def isParameter (c : Char) : Bool := c.isDigit || c == ';'

/-- What is left of a text after the escape sequence that it starts with. -/
def afterEscape? : List Char → Option (List Char)
  | first :: second :: rest =>
    let rest := rest.dropWhile isParameter
    if first = '\x1b' ∧ second = '[' ∧ rest.head? = some 'm' then some rest.tail else none
  | _ => none

/-- An escape sequence has at least one character, so taking it off makes a text shorter. -/
theorem length_lt_of_afterEscape? {text rest : List Char} (h : afterEscape? text = some rest) :
    rest.length < text.length := by
  match text with
  | [] | [_] => simp [afterEscape?] at h
  | _ :: _ :: text =>
      have hdropped := (List.dropWhile_suffix (p := isParameter) (l := text)).length_le
      simp only [afterEscape?, Option.ite_none_right_eq_some, Option.some.injEq] at h
      rw [← h.2, List.length_tail, List.length_cons, List.length_cons]
      omega

/-- The text without its escape sequences: an escape character and a bracket, then digits and
semicolons, and an m. -/
def withoutEscapes : List Char → List Char
  | [] => []
  | c :: text =>
    match _ : afterEscape? (c :: text) with
    | some rest => withoutEscapes rest
    | none => c :: withoutEscapes text
termination_by text => text.length
decreasing_by
  · exact length_lt_of_afterEscape? ‹_›
  · exact Nat.lt_succ_self _

@[simp] theorem withoutEscapes_nil : withoutEscapes [] = [] := by rw [withoutEscapes]

/-- An escape sequence in front goes away. -/
theorem withoutEscapes_of_some {text rest : List Char} (h : afterEscape? text = some rest) :
    withoutEscapes text = withoutEscapes rest := by
  cases text with
  | nil => simp [afterEscape?] at h
  | cons c text =>
      rw [withoutEscapes]
      split <;> simp_all

/-- A character that begins no escape sequence stays. -/
theorem withoutEscapes_of_none {c : Char} {text : List Char} (h : afterEscape? (c :: text) = none) :
    withoutEscapes (c :: text) = c :: withoutEscapes text := by
  rw [withoutEscapes]
  split <;> simp_all

/-- Only an escape character starts a sequence. -/
theorem withoutEscapes_cons_of_ne {c : Char} (h : c ≠ '\x1b') (text : List Char) :
    withoutEscapes (c :: text) = c :: withoutEscapes text := by
  apply withoutEscapes_of_none
  cases text <;> simp [afterEscape?, h]

/-- A text without the escape character has nothing to lose. -/
theorem withoutEscapes_eq_self {text : List Char} (h : '\x1b' ∉ text) :
    withoutEscapes text = text := by
  induction text with
  | nil => rw [withoutEscapes_nil]
  | cons c rest ih =>
      obtain ⟨hc, hrest⟩ := not_or.mp (mt List.mem_cons.mpr h)
      rw [withoutEscapes_cons_of_ne (Ne.symm hc), ih hrest]

/-! ## where a text can be parted -/

/-- Can the character stand in an escape sequence after its start? -/
def continuesEscape (c : Char) : Bool := c == '[' || isParameter c || c == 'm'

/-- A character that cannot continue a sequence ends the search for one: what follows it plays no
part. -/
theorem afterEscape?_append {c : Char} (hc : continuesEscape c = false) (first : Char)
    (text rest : List Char) :
    afterEscape? (first :: text ++ c :: rest) =
      (afterEscape? (first :: text)).map (· ++ c :: rest) := by
  simp only [continuesEscape, Bool.or_eq_false_iff, beq_eq_false_iff_ne] at hc
  obtain ⟨⟨hbracket, hparameter⟩, hm⟩ := hc
  cases text with
  | nil => simp [afterEscape?, hbracket]
  | cons second text =>
      simp only [afterEscape?, List.cons_append, List.dropWhile_append]
      cases text.dropWhile isParameter with
      | nil => simp [hparameter, hm]
      | cons d left => by_cases hd : d = 'm' <;> simp [hd]

/-- Sequences before a character that has no place inside one end before it. -/
theorem withoutEscapes_append {c : Char} (hc : continuesEscape c = false)
    (text rest : List Char) :
    withoutEscapes (text ++ c :: rest) = withoutEscapes text ++ withoutEscapes (c :: rest) := by
  fun_induction withoutEscapes text with
  | case1 => simp
  | case2 first text left h ih =>
      have happend : afterEscape? (first :: text ++ c :: rest) = some (left ++ c :: rest) := by
        rw [afterEscape?_append hc, h, Option.map_some]
      rw [withoutEscapes_of_some happend, ih]
  | case3 first text h ih =>
      have happend : afterEscape? (first :: (text ++ c :: rest)) = none := by
        rw [← List.cons_append, afterEscape?_append hc, h, Option.map_none]
      rw [List.cons_append, withoutEscapes_of_none happend, ih, List.cons_append]

/-! ## sequences that are written -/

/-- An escape sequence whose code is made of parameters goes away, whatever follows. -/
theorem withoutEscapes_escapeSequence {code : List Char} (h : ∀ c ∈ code, isParameter c = true)
    (rest : List Char) : withoutEscapes (escapeSequence code ++ rest) = withoutEscapes rest := by
  have hcode : (code ++ 'm' :: rest).dropWhile isParameter = 'm' :: rest := by
    rw [List.dropWhile_append_of_pos h]
    rfl
  apply withoutEscapes_of_some
  simp [escapeSequence, afterEscape?, hcode]

/-- The codes of styles are made of parameters. -/
theorem Style.isParameter_of_mem_code (s : Style) : ∀ c ∈ s.code.toList, isParameter c = true := by
  cases s <;> simp [code, isParameter]

theorem Style.withoutEscapes_opening (s : Style) (rest : List Char) :
    withoutEscapes (s.opening ++ rest) = withoutEscapes rest :=
  withoutEscapes_escapeSequence s.isParameter_of_mem_code rest

theorem withoutEscapes_resetSequence (rest : List Char) :
    withoutEscapes (resetSequence ++ rest) = withoutEscapes rest :=
  withoutEscapes_escapeSequence (by simp [isParameter]) rest

theorem withoutEscapes_append_resetSequence (before rest : List Char) :
    withoutEscapes (before ++ (resetSequence ++ rest)) =
      withoutEscapes before ++ withoutEscapes rest := by
  rw [← withoutEscapes_resetSequence rest]
  exact withoutEscapes_append rfl before _

/-- Nothing is left of a style that is opened again after every reset. -/
theorem Style.withoutEscapes_afterResets (s : Style) (before text : List Char) :
    withoutEscapes (before ++ afterResets s.opening text) = withoutEscapes (before ++ text) := by
  fun_induction afterResets s.opening text generalizing before with
  | case1 rest ih =>
      have hreset : '\x1b' :: '[' :: '0' :: 'm' :: rest = resetSequence ++ rest := rfl
      rw [hreset, List.append_assoc, withoutEscapes_append_resetSequence,
        withoutEscapes_append_resetSequence, s.withoutEscapes_opening]
      exact congrArg _ (ih [])
  | case2 c rest _ ih => simpa using ih (before ++ [c])
  | case3 => rfl

/-! ## pieces -/

namespace Piece

/-- The piece without its style. -/
@[simp] def text : Piece → List Char
  | .plain text | .styled _ text => text

/-- Without colours a piece is its text. -/
theorem render_false (p : Piece) : p.render false = p.text := by
  cases p <;> rfl

/-- No escape sequence contains the character. -/
def separates (c : Char) : Bool := !continuesEscape c && c != '\x1b'

@[simp] theorem separates_blank : separates ' ' = true := rfl

@[simp] theorem separates_lineFeed : separates '\n' = true := rfl

@[simp] theorem separates_quote : separates '\'' = true := rfl

/-- There is a character where the two texts meet that no escape sequence contains. -/
def Apart (p q : Piece) : Prop :=
  p.text.getLast?.any separates = true ∨ q.text.head?.any separates = true

/-- A text that ends in a separating character is freed of sequences by itself. -/
theorem withoutEscapes_append_of_getLast? {text : List Char}
    (h : text.getLast?.any separates = true) (rest : List Char) :
    withoutEscapes (text ++ rest) = withoutEscapes text ++ withoutEscapes rest := by
  obtain ⟨last, hlast, hsep⟩ := Option.any_eq_true _ _ |>.mp h
  obtain ⟨init, rfl⟩ := List.getLast?_eq_some_iff.mp hlast
  simp only [separates, Bool.and_eq_true, Bool.not_eq_true', bne_iff_ne] at hsep
  rw [List.append_assoc, List.singleton_append, withoutEscapes_append hsep.1,
    withoutEscapes_append hsep.1, withoutEscapes_cons_of_ne hsep.2,
    withoutEscapes_cons_of_ne hsep.2, withoutEscapes_nil, List.append_assoc, List.singleton_append]

/-- A text is freed of sequences by itself if what follows cannot continue one. -/
theorem withoutEscapes_append_of_head? {rest : List Char}
    (h : rest.head?.all (!continuesEscape ·) = true) (text : List Char) :
    withoutEscapes (text ++ rest) = withoutEscapes text ++ withoutEscapes rest := by
  cases rest with
  | nil => simp
  | cons c rest => exact withoutEscapes_append (by simpa using h) text rest

/-- With or without color, the same is left of a piece. -/
theorem withoutEscapes_render_append (color : Bool) (p : Piece) {rest : List Char}
    (h : p.text.getLast?.any separates = true ∨ rest.head?.all (!continuesEscape ·) = true) :
    withoutEscapes (p.render color ++ rest) = withoutEscapes p.text ++ withoutEscapes rest := by
  have htext : withoutEscapes (p.text ++ rest) = withoutEscapes p.text ++ withoutEscapes rest :=
    h.elim (withoutEscapes_append_of_getLast? · rest) (withoutEscapes_append_of_head? · p.text)
  cases p with
  | plain text => exact htext
  | styled style text =>
      cases color with
      | false => exact htext
      | true =>
          have hleft := style.withoutEscapes_afterResets [] text
          simp only [List.nil_append] at hleft
          rw [render, if_pos rfl, List.append_assoc, List.append_assoc,
            style.withoutEscapes_opening, withoutEscapes_append_resetSequence, hleft, Piece.text]

/-- A written piece starts as its text does, or with an escape character. -/
theorem head?_renderAll (color : Bool) {p : Piece} (h : p.text.head?.any separates = true)
    (rest : List Piece) :
    (renderAll color (p :: rest)).head?.all (!continuesEscape ·) = true := by
  obtain ⟨c, hc, hsep⟩ := Option.any_eq_true _ _ |>.mp h
  obtain ⟨tail, htail⟩ := List.head?_eq_some_iff.mp hc
  simp only [separates, Bool.and_eq_true, Bool.not_eq_true', bne_iff_ne] at hsep
  rw [renderAll, List.flatMap_cons]
  cases p with
  | plain text =>
      obtain rfl : text = c :: tail := htail
      simp [render, hsep.1]
  | styled style text =>
      obtain rfl : text = c :: tail := htail
      cases color with
      | false => simp [render, hsep.1]
      | true => rfl

/-- Pieces that are apart are done one by one, with or without color. -/
theorem withoutEscapes_renderAll (color : Bool) {pieces : List Piece} (h : pieces.IsChain Apart) :
    withoutEscapes (renderAll color pieces) = pieces.flatMap fun p => withoutEscapes p.text := by
  induction pieces with
  | nil => simp [renderAll]
  | cons p rest ih =>
      have hnext : p.text.getLast?.any separates = true ∨
          (renderAll color rest).head?.all (!continuesEscape ·) = true := by
        cases rest with
        | nil => exact .inr rfl
        | cons q rest =>
            exact (List.isChain_cons_cons.mp h).1.imp_right (head?_renderAll color · rest)
      have hrest := ih h.tail
      rw [renderAll] at hrest hnext ⊢
      rw [List.flatMap_cons, withoutEscapes_render_append color p hnext, hrest, List.flatMap_cons]

end Piece

end FieldScript
