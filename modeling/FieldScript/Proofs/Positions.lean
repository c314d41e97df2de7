import Mathlib.Data.List.Induction
import FieldScript.Text.Place

/-!
# FieldScript.Proofs.Positions

A line and a column determine an offset.

A text is the lines it consists of, each with the line feed that ends it (`Text.lines`).  What
stands before an offset is some whole lines and the beginning of the next one, and the place of
the offset counts both (`Place.line_at`).  So places grow with offsets, and an offset is read
back as the bytes of the lines above and of the characters before it in its line
(`Place.determines_offset`).
-/

namespace FieldScript

/-! ## lines -/

namespace Text

/-- The lines of a text in order, each with the line feed that ends it.  The last line has
none, and it is empty where the text ends with a line feed. -/
def lines : List Char → List (List Char)
  | [] => [[]]
  | c :: rest =>
    if c = '\n' then [c] :: lines rest else (lines rest).modifyHead (c :: ·)

theorem lines_cons_lineFeed (rest : List Char) : lines ('\n' :: rest) = ['\n'] :: lines rest := by
  simp [lines]

theorem lines_cons_of_ne {c : Char} (h : c ≠ '\n') (rest : List Char) :
    lines (c :: rest) = (lines rest).modifyHead (c :: ·) := by
  simp [lines, h]

theorem length_lines (text : List Char) : (lines text).length = text.count '\n' + 1 := by
  induction text with
  | nil => rfl
  | cons c rest ih =>
      by_cases h : c = '\n'
      · subst h
        simp [lines_cons_lineFeed, ih]
      · simp [lines_cons_of_ne h, ih, h]

/-- The line feed that ends the first line of a text, if there is one. -/
def firstEnd (text : List Char) : List Char := if text.contains '\n' then ['\n'] else []

/-- The first line goes up to the first line feed. -/
theorem exists_lines_eq_cons (text : List Char) :
    ∃ below, lines text = (Place.restOfLine text ++ firstEnd text) :: below := by
  induction text with
  | nil => exact ⟨[], rfl⟩
  | cons c rest ih =>
      by_cases h : c = '\n'
      · subst h
        exact ⟨lines rest, by simp [lines_cons_lineFeed, Place.restOfLine, firstEnd]⟩
      · obtain ⟨below, hrest⟩ := ih
        refine ⟨below, ?_⟩
        have hne : ¬ '\n' = c := fun heq => h heq.symm
        simp [lines_cons_of_ne h, hrest, Place.restOfLine, firstEnd, h, hne]

/-- The beginning of a text is whole lines, as many as it has line feeds, and the beginning of
a line that goes on after it. -/
theorem exists_lines_append (before : List Char) :
    ∃ above : List (List Char), above.length = before.count '\n' ∧
      above.flatten ++ Place.lastLine before = before ∧
      ∀ after, lines (before ++ after) =
        above ++ (lines after).modifyHead (Place.lastLine before ++ ·) := by
  induction before using List.reverseRecOn with
  | nil => exact ⟨[], rfl, rfl, fun after => (congrFun List.modifyHead_id (lines after)).symm⟩
  | append_singleton before c ih =>
      obtain ⟨above, hlength, hflatten, hlines⟩ := ih
      by_cases h : c = '\n'
      · subst h
        refine ⟨above ++ [Place.lastLine before ++ ['\n']], ?_, ?_, fun after => ?_⟩
        · simp [hlength]
        · rw [Place.lastLine_append_lineFeed, List.flatten_append, List.flatten_singleton,
            ← List.append_assoc, hflatten, List.append_nil]
        · have hid : (lines after).modifyHead ([] ++ ·) = lines after :=
            congrFun List.modifyHead_id (lines after)
          rw [List.append_assoc, List.singleton_append, hlines, lines_cons_lineFeed,
            Place.lastLine_append_lineFeed, hid]
          simp
      · refine ⟨above, ?_, ?_, fun after => ?_⟩
        · simp [hlength, h]
        · rw [Place.lastLine_append_of_ne before h, ← List.append_assoc, hflatten]
        · rw [List.append_assoc, List.singleton_append, hlines, lines_cons_of_ne h,
            Place.lastLine_append_of_ne before h, List.modifyHead_modifyHead]
          simp [Function.comp_def]

/-! ## offsets between characters -/

theorem byteLength_pos {cs : List Char} (h : cs ≠ []) : 0 < byteLength cs := by
  cases cs with
  | nil => exact absurd rfl h
  | cons c rest =>
      have := c.utf8Size_pos
      simp only [byteLength]
      omega

/-- Of two ways to cut a text in two, the shorter beginning is the beginning of the other. -/
theorem exists_eq_append_of_byteLength_le {first second first' second' : List Char}
    (h : first ++ second = first' ++ second') (hle : byteLength first ≤ byteLength first') :
    ∃ between, first' = first ++ between ∧ second = between ++ second' := by
  obtain h | ⟨more, rfl, rfl⟩ := List.append_eq_append_iff.mp h
  · exact h
  · have hnone : more = [] := by
      by_contra hne
      have := byteLength_pos hne
      rw [byteLength_append] at hle
      omega
    exact ⟨[], by simp [hnone], by simp [hnone]⟩

/-- Bytes are those of the text in UTF-8. -/
theorem utf8ByteSize_ofList (cs : List Char) : (String.ofList cs).utf8ByteSize = byteLength cs := by
  induction cs with
  | nil => rfl
  | cons c rest ih =>
      rw [String.ofList_cons, String.utf8ByteSize_append, String.utf8ByteSize_singleton, ih,
        byteLength]

/-- A text can be cut exactly where a character starts or the text ends. -/
theorem exists_cut?_iff (source : String) (offset : Nat) :
    (∃ before after, cut? source.toList offset = some (before, after)) ↔
      (⟨offset⟩ : String.Pos.Raw).IsValid source := by
  rw [String.Pos.Raw.isValid_iff_exists_append]
  constructor
  · intro h
    obtain ⟨before, after, h⟩ := h
    obtain ⟨hsource, hbytes⟩ := eq_append_of_cut? h
    refine ⟨String.ofList before, String.ofList after, ?_, ?_⟩
    · rw [← String.ofList_append, ← hsource, String.ofList_toList]
    · rw [String.Pos.Raw.ext_iff, ← hbytes, ← utf8ByteSize_ofList]
      rfl
  · intro h
    obtain ⟨before, after, rfl, heq⟩ := h
    have hoffset : offset = byteLength before.toList := by
      rw [← utf8ByteSize_ofList, String.ofList_toList]
      exact congrArg String.Pos.Raw.byteIdx heq
    exact ⟨before.toList, after.toList, by rw [hoffset, String.toList_append, cut?_append]⟩

end Text

/-! ## places -/

namespace Place

/-- One place comes before another in reading order. -/
def Before (p q : Place) : Prop := p.line < q.line ∨ p.line = q.line ∧ p.column < q.column

theorem lastLine_append_of_not_mem (before : List Char) {more : List Char} (h : '\n' ∉ more) :
    lastLine (before ++ more) = lastLine before ++ more := by
  have hkept : ∀ c ∈ more.reverse, (decide (c ≠ '\n')) = true := by
    intro c hc
    have hne : c ≠ '\n' := fun heq => h (heq ▸ List.mem_reverse.mp hc)
    simpa using hne
  rw [lastLine, List.reverse_append, List.takeWhile_append_of_pos hkept]
  simp [lastLine]

/-- More text leads to a later place. -/
theorem before_ofBefore_append (before : List Char) {more : List Char} (h : more ≠ []) :
    (ofBefore before).Before (ofBefore (before ++ more)) := by
  by_cases hfeed : '\n' ∈ more
  · have hcount := List.count_pos_iff.mpr hfeed
    exact .inl (by simp only [ofBefore, List.count_append]; omega)
  · have hlength := List.length_pos_iff.mpr h
    refine .inr ⟨?_, ?_⟩
    · simp [ofBefore, List.count_eq_zero_of_not_mem hfeed]
    · rw [ofBefore, ofBefore, lastLine_append_of_not_mem before hfeed, List.length_append]
      dsimp only
      omega

/-- The place at the end of the first part of a text counts the lines above and the
characters before it in its line. -/
theorem line_at (before after : List Char) :
    let lines := Text.lines (before ++ after)
    let above := (lines.take ((ofBefore before).line - 1)).flatten
    above ++ lastLine before = before ∧
      lines[(ofBefore before).line - 1]? =
        some (lastLine before ++ (restOfLine after ++ Text.firstEnd after)) := by
  intro lines above
  obtain ⟨whole, hlength, hflatten, hlines⟩ := Text.exists_lines_append before
  obtain ⟨below, hbelow⟩ := Text.exists_lines_eq_cons after
  have hall : lines = whole ++
      (lastLine before ++ (restOfLine after ++ Text.firstEnd after)) :: below := by
    rw [← List.modifyHead_cons, ← hbelow]
    exact hlines after
  have hline : (ofBefore before).line - 1 = whole.length := hlength.symm
  refine ⟨?_, ?_⟩
  · rw [show above = whole.flatten by simp only [above, hline, hall, List.take_left], hflatten]
  · rw [hline, hall, List.getElem?_append_right (Nat.le_refl _)]
    simp

theorem ofOffset?_eq_some {text : List Char} {offset : Nat} {p : Place}
    (h : ofOffset? text offset = some p) :
    ∃ before after, text = before ++ after ∧ Text.byteLength before = offset ∧
      ofBefore before = p := by
  obtain ⟨⟨before, after⟩, hcut, hp⟩ := Option.map_eq_some_iff.mp h
  obtain ⟨htext, hbytes⟩ := Text.eq_append_of_cut? hcut
  exact ⟨before, after, htext, hbytes, hp⟩

/-- Later offsets have later places. -/
theorem before_of_lt {text : List Char} {offset offset' : Nat} {p p' : Place}
    (h : ofOffset? text offset = some p) (h' : ofOffset? text offset' = some p')
    (hlt : offset < offset') : p.Before p' := by
  obtain ⟨before, after, rfl, rfl, rfl⟩ := ofOffset?_eq_some h
  obtain ⟨before', after', htext, rfl, rfl⟩ := ofOffset?_eq_some h'
  obtain ⟨more, rfl, _⟩ := Text.exists_eq_append_of_byteLength_le htext (Nat.le_of_lt hlt)
  refine before_ofBefore_append before fun hnil => ?_
  rw [hnil, List.append_nil] at hlt
  exact Nat.lt_irrefl _ hlt

/-- An offset has a place exactly if it lies between characters.  Places grow strictly with
offsets, so no two offsets share one.  The offset is the number of bytes in the lines above
its place and in the characters before it in its line. -/
theorem determines_offset (source : String) :
    let text := source.toList
    (∀ offset, (ofOffset? text offset).isSome = true ↔
        (⟨offset⟩ : String.Pos.Raw).IsValid source) ∧
      (∀ {offset offset' p p'}, ofOffset? text offset = some p →
        ofOffset? text offset' = some p' →
          (offset < offset' ↔ p.Before p') ∧ (p = p' → offset = offset')) ∧
      ∀ {offset p}, ofOffset? text offset = some p →
        0 < p.line ∧ 0 < p.column ∧
          ∃ line, (Text.lines text)[p.line - 1]? = some line ∧ p.column - 1 ≤ line.length ∧
            offset = Text.byteLength ((Text.lines text).take (p.line - 1)).flatten +
              Text.byteLength (line.take (p.column - 1)) := by
  intro text
  refine ⟨fun offset => ?_, fun {offset offset' p p'} h h' => ?_, fun {offset p} h => ?_⟩
  · rw [← Text.exists_cut?_iff, ofOffset?, Option.isSome_map, Option.isSome_iff_exists]
    exact Prod.exists
  · obtain hlt | rfl | hlt := Nat.lt_trichotomy offset offset'
    · have hbefore := before_of_lt h h' hlt
      refine ⟨iff_of_true hlt hbefore, fun heq => ?_⟩
      subst heq
      simp [Before] at hbefore
    · obtain rfl : p = p' := Option.some.inj (h.symm.trans h')
      exact ⟨by simp [Before], fun _ => rfl⟩
    · have hbefore := before_of_lt h' h hlt
      refine ⟨iff_of_false (Nat.lt_asymm hlt) ?_, fun heq => ?_⟩
      · unfold Before at hbefore ⊢
        omega
      · subst heq
        simp [Before] at hbefore
  · obtain ⟨before, after, htext, rfl, rfl⟩ := ofOffset?_eq_some h
    obtain ⟨habove, hline⟩ := line_at before after
    rw [htext]
    have hcolumn : (ofBefore before).column - 1 = (lastLine before).length := rfl
    refine ⟨Nat.succ_pos _, Nat.succ_pos _, _, hline, ?_, ?_⟩
    · rw [hcolumn, List.length_append]
      exact Nat.le_add_right _ _
    · rw [hcolumn, List.take_left, ← Text.byteLength_append, habove]

/-- In this text the first line has a character of two bytes. -/
theorem determines_offset_accented :
    let text := "é\nab".toList
    ofOffset? text 3 = some ⟨2, 1⟩ ∧ ofOffset? text 4 = some ⟨2, 2⟩ ∧
      (3 < 4 ↔ Before ⟨2, 1⟩ ⟨2, 2⟩) ∧
      ∃ line, (Text.lines text)[1]? = some line ∧ 1 ≤ line.length ∧
        4 = Text.byteLength ((Text.lines text).take 1).flatten + Text.byteLength (line.take 1) := by
  intro text
  have hthree : ofOffset? text 3 = some ⟨2, 1⟩ := by decide
  have hfour : ofOffset? text 4 = some ⟨2, 2⟩ := by decide
  obtain ⟨_, hordered, hoffset⟩ := determines_offset "é\nab"
  exact ⟨hthree, hfour, (hordered hthree hfour).1, (hoffset hfour).2.2⟩

end Place

end FieldScript
