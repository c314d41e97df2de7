import Mathlib.Data.Nat.Digits.Defs
import FieldScript.Report
import FieldScript.Proofs.Positions

/-!
# FieldScript.Proofs.Extracts

What a report shows of a program text.

The extract of a range is the line of the text that the range starts in, without what ends the
line, and under it as many blanks as there are characters before the start and as many carets
as the range has characters in what is shown (`Extract.Shows`).  A range that starts between
characters has an extract, and its report opens with a line and a column; one that does not has
no extract, and its report opens with the offsets of its start and its end.

The extract is computed with offsets, differences and slices of the text.  `Report.guarded`
computes it so and stops where a difference would fall below zero or a number or a text would
be too large; it never does (`Report.guarded_eq`).
-/

namespace FieldScript

/-! ## the line that is shown -/

namespace Text

/-- A line without what ends it: a line feed, or a carriage return and a line feed. -/
def withoutEnd (line : List Char) : List Char :=
  if line.getLast? = some '\n' then
    if line.dropLast.getLast? = some '\r' then line.dropLast.dropLast else line.dropLast
  else line

theorem length_le_byteLength (cs : List Char) : cs.length ≤ byteLength cs := by
  induction cs with
  | nil => exact Nat.le_refl 0
  | cons c rest ih =>
      have := c.utf8Size_pos
      simp only [List.length_cons, byteLength]
      omega

end Text

theorem Place.ne_lineFeed_of_mem_takeWhile {text : List Char} :
    '\n' ∉ text.takeWhile (· ≠ '\n') := by
  intro h
  simpa using List.all_eq_true.mp (List.all_takeWhile (l := text)) '\n' h

theorem Place.lineFeed_not_mem_lastLine (before : List Char) : '\n' ∉ lastLine before := by
  intro h
  rw [lastLine, List.mem_reverse] at h
  exact Place.ne_lineFeed_of_mem_takeWhile h

namespace Extract

/-- The line that is shown is the line around the cut without what ends it. -/
theorem lineAt_eq_withoutEnd (before after : List Char) :
    lineAt before after = Text.withoutEnd
      (Place.lastLine before ++ (Place.restOfLine after ++ Text.firstEnd after)) := by
  rw [← List.append_assoc, lineAt, stripEnd, Text.firstEnd]
  have hbody : '\n' ∉ Place.lastLine before ++ Place.restOfLine after :=
    fun h => (List.mem_append.mp h).elim (Place.lineFeed_not_mem_lastLine before)
      Place.ne_lineFeed_of_mem_takeWhile
  generalize Place.lastLine before ++ Place.restOfLine after = body at hbody
  cases after.contains '\n' with
  | true => simp [Text.withoutEnd]
  | false =>
      have hlast : body.getLast? ≠ some '\n' := fun h => hbody (List.mem_of_getLast? h)
      simp [Text.withoutEnd, hlast]

/-- What is shown goes on from the cut with the text that follows, unless the cut is within
the end of the line. -/
theorem lineAt_cases (before after : List Char) :
    (∃ inside rest, after = inside ++ rest ∧
        lineAt before after = Place.lastLine before ++ inside) ∨
      Text.byteLength (lineAt before after) < Text.byteLength (Place.lastLine before) := by
  have hafter : after = Place.restOfLine after ++ after.dropWhile (· ≠ '\n') :=
    List.takeWhile_append_dropWhile.symm
  rw [lineAt, stripEnd]
  split
  · next hreturn =>
      obtain ⟨_, hlast⟩ := Bool.and_eq_true_iff.mp hreturn
      obtain ⟨front, hfront⟩ := List.getLast?_eq_some_iff.mp (beq_iff_eq.mp hlast)
      rw [hfront, List.dropLast_concat]
      obtain ⟨inside, rfl, hrest⟩ | ⟨more, hline, _⟩ := List.append_eq_append_iff.mp hfront
      · refine .inl ⟨inside, '\r' :: after.dropWhile (· ≠ '\n'), ?_, rfl⟩
        rw [List.append_cons, ← hrest]
        exact hafter
      · cases more with
        | nil => exact .inl ⟨[], after, rfl, by simp [hline]⟩
        | cons c more =>
            have hbytes := Text.byteLength_append front (c :: more)
            have := Text.byteLength_pos (List.cons_ne_nil c more)
            rw [← hline] at hbytes
            exact .inr (by omega)
  · exact .inl ⟨Place.restOfLine after, _, hafter, rfl⟩

end Extract

/-! ## the characters that are marked -/

namespace Text

/-- How many characters of a text that stands at an offset lie within a range. -/
def charsWithin (range : Range) (offset : Nat) : List Char → Nat
  | [] => 0
  | c :: rest =>
    (if range.start ≤ offset ∧ offset + c.utf8Size ≤ range.stop then 1 else 0) +
      charsWithin range (offset + c.utf8Size) rest

variable {range : Range} {offset : Nat}

theorem charsWithin_append (first second : List Char) :
    charsWithin range offset (first ++ second) =
      charsWithin range offset first + charsWithin range (offset + byteLength first) second := by
  induction first generalizing offset with
  | nil => simp [charsWithin, byteLength]
  | cons c rest ih => simp [charsWithin, byteLength, ih, Nat.add_assoc]

/-- A text that stands apart from a range has no character in it. -/
theorem charsWithin_of_apart {text : List Char}
    (h : offset + byteLength text ≤ range.start ∨ range.stop ≤ offset) :
    charsWithin range offset text = 0 := by
  induction text generalizing offset with
  | nil => rfl
  | cons c rest ih =>
      have := c.utf8Size_pos
      simp only [byteLength] at h
      have hrest : charsWithin range (offset + c.utf8Size) rest = 0 := ih (by omega)
      have hnot : ¬ (range.start ≤ offset ∧ offset + c.utf8Size ≤ range.stop) := by omega
      simp [charsWithin, hrest, hnot]

/-- A text that stands within a range has all its characters in it. -/
theorem charsWithin_of_within {text : List Char} (hstart : range.start ≤ offset)
    (hstop : offset + byteLength text ≤ range.stop) :
    charsWithin range offset text = text.length := by
  induction text generalizing offset with
  | nil => rfl
  | cons c rest ih =>
      simp only [byteLength] at hstop
      have hrest : charsWithin range (offset + c.utf8Size) rest = rest.length :=
        ih (by omega) (by omega)
      have hin : range.start ≤ offset ∧ offset + c.utf8Size ≤ range.stop := by omega
      simp only [charsWithin, hrest, hin, and_self, if_true, List.length_cons]
      omega

end Text

namespace Extract

variable {before after : List Char} {range : Range} {lineStart : Nat}

/-- The marks go up to a cut of what follows the start. -/
theorem markedAt_append {marked rest : List Char}
    (h : min range.stop (Text.byteLength before - Text.byteLength (Place.lastLine before) +
      Text.byteLength (lineAt before (marked ++ rest))) =
        Text.byteLength before + Text.byteLength marked) :
    markedAt before (marked ++ rest) range = max 1 marked.length := by
  have hnot : ¬ Text.byteLength before + Text.byteLength marked < Text.byteLength before := by omega
  simp only [markedAt, h, hnot, if_false, Nat.add_sub_cancel_left, Text.cut?_append]

/-- The characters up to the end of the range are marked, or up to the end of what is shown,
where the range ends between characters or reaches that far. -/
theorem markedAt_eq_charsWithin (hlen : 0 < range.len)
    (hstart : Text.byteLength before = range.start)
    (hline : lineStart + Text.byteLength (Place.lastLine before) = range.start)
    (hreaches : (∃ first second, Text.cut? (before ++ after) range.stop = some (first, second)) ∨
      lineStart + Text.byteLength (lineAt before after) ≤ range.stop) :
    markedAt before after range =
      max 1 (Text.charsWithin range lineStart (lineAt before after)) := by
  have hstop : range.start < range.stop := Nat.lt_add_of_pos_right hlen
  obtain ⟨inside, rest, rfl, hshown⟩ | hshort := lineAt_cases before after
  · have hbytes := Text.byteLength_append (Place.lastLine before) inside
    rw [← hshown] at hbytes
    have hcount : Text.charsWithin range lineStart (lineAt before (inside ++ rest)) =
        Text.charsWithin range range.start inside := by
      rw [hshown, Text.charsWithin_append, Text.charsWithin_of_apart (.inl (Nat.le_of_eq hline)),
        hline, Nat.zero_add]
    rw [hcount]
    by_cases hle : range.start + Text.byteLength inside ≤ range.stop
    · rw [markedAt_append (by omega), Text.charsWithin_of_within (Nat.le_refl _) hle]
    · -- the range ends in what is shown, so it ends between characters
      obtain ⟨first, second, hcut⟩ := hreaches.resolve_right (by omega)
      obtain ⟨htext, hfirst⟩ := Text.eq_append_of_cut? hcut
      obtain ⟨marked, rfl, hafter⟩ := Text.exists_eq_append_of_byteLength_le htext (by omega)
      rw [Text.byteLength_append] at hfirst
      obtain ⟨more, rfl, _⟩ := Text.exists_eq_append_of_byteLength_le hafter.symm (by omega)
      have hinside := Text.byteLength_append marked more
      rw [List.append_assoc] at hbytes ⊢
      rw [markedAt_append (by omega), Text.charsWithin_append,
        Text.charsWithin_of_within (Nat.le_refl _) (by omega),
        Text.charsWithin_of_apart (.inr (by omega)), Nat.add_zero]
  · have hnone : Text.charsWithin range lineStart (lineAt before after) = 0 :=
      Text.charsWithin_of_apart (.inl (by omega))
    have hlt : min range.stop (Text.byteLength before - Text.byteLength (Place.lastLine before) +
        Text.byteLength (lineAt before after)) < Text.byteLength before := by omega
    rw [markedAt, if_pos hlt, hnone]
    rfl

/-- Otherwise there is one mark. -/
theorem markedAt_eq_one (hlen : 0 < range.len) (hstart : Text.byteLength before = range.start)
    (hline : lineStart + Text.byteLength (Place.lastLine before) = range.start)
    (hreaches : ¬ ((∃ first second, Text.cut? (before ++ after) range.stop = some (first, second)) ∨
      lineStart + Text.byteLength (lineAt before after) ≤ range.stop)) :
    markedAt before after range = 1 := by
  obtain ⟨hcut, hbeyond⟩ := not_or.mp hreaches
  have hstop : range.start < range.stop := Nat.lt_add_of_pos_right hlen
  have hmin : min range.stop (Text.byteLength before - Text.byteLength (Place.lastLine before) +
      Text.byteLength (lineAt before after)) = range.stop := by omega
  rw [markedAt, hmin, if_neg (by omega)]
  split
  · next inside rest hinside =>
      obtain ⟨rfl, hbytes⟩ := Text.eq_append_of_cut? hinside
      refine absurd ⟨before ++ inside, rest, ?_⟩ hcut
      have hoffset : Text.byteLength (before ++ inside) = range.stop := by
        rw [Text.byteLength_append]
        omega
      rw [← List.append_assoc, ← hoffset, Text.cut?_append]
  · rfl

end Extract

/-! ## the extract and the text -/

namespace Extract

variable {before after : List Char} {range : Range}

/-- The offset at which the line of an extract begins. -/
def lineStart (source : String) (x : Extract) : Nat :=
  Text.byteLength ((Text.lines source.toList).take (x.place.line - 1)).flatten

/-- An extract shows where a range begins and how far it reaches. -/
structure Shows (source : String) (range : Range) (x : Extract) : Prop where
  /-- The line in which the range begins is shown, as many characters of it before the start
  as the column tells.  Only the last line is without an end that the start could stand before. -/
  line : ∃ line, (Text.lines source.toList)[x.place.line - 1]? = some line ∧
    x.content = Text.withoutEnd line ∧ x.place.column - 1 ≤ line.length ∧
    x.lineStart source + Text.byteLength (line.take (x.place.column - 1)) = range.start ∧
    (range.start < x.lineStart source + Text.byteLength line ∨
      x.place.line = (Text.lines source.toList).length)
  marked : (⟨range.stop⟩ : String.Pos.Raw).IsValid source ∨
      x.lineStart source + Text.byteLength x.content ≤ range.stop →
    x.marked = max 1 (Text.charsWithin range (x.lineStart source) x.content)
  /-- A range that ends within a character of what is shown has no end to mark. -/
  unended : ¬ ((⟨range.stop⟩ : String.Pos.Raw).IsValid source ∨
      x.lineStart source + Text.byteLength x.content ≤ range.stop) → x.marked = 1

theorem shows_of_cut {source : String} (hlen : 0 < range.len)
    (htext : source.toList = before ++ after) (hstart : Text.byteLength before = range.start) :
    Shows source range
      ⟨.ofBefore before, lineAt before after, markedAt before after range⟩ := by
  obtain ⟨habove, hline⟩ := Place.line_at before after
  have hbytes : Text.byteLength ((Text.lines (before ++ after)).take
      ((Place.ofBefore before).line - 1)).flatten + Text.byteLength (Place.lastLine before) =
        range.start := by
    rw [← Text.byteLength_append, habove, hstart]
  have hcut := Text.exists_cut?_iff source range.stop
  rw [htext] at hcut
  have hcolumn : (Place.ofBefore before).column - 1 = (Place.lastLine before).length := rfl
  refine ⟨⟨_, by rw [htext]; exact hline, lineAt_eq_withoutEnd before after, ?_, ?_, ?_⟩, ?_, ?_⟩
  · rw [hcolumn, List.length_append]
    exact Nat.le_add_right _ _
  · rw [hcolumn, List.take_left, lineStart, htext, hbytes]
  · rw [lineStart, htext, Text.byteLength_append, ← Nat.add_assoc, hbytes]
    by_cases hend : '\n' ∈ after
    · refine .inl (Nat.lt_add_of_pos_right (Text.byteLength_pos ?_))
      simp [Text.firstEnd, hend]
    · refine .inr ?_
      rw [Text.length_lines, List.count_append, List.count_eq_zero_of_not_mem hend]
      rfl
  · intro hreaches
    rw [lineStart, htext] at hreaches ⊢
    exact markedAt_eq_charsWithin hlen hstart hbytes (hreaches.imp_left hcut.mpr)
  · intro hreaches
    rw [lineStart, htext] at hreaches
    exact markedAt_eq_one hlen hstart hbytes fun h => hreaches (h.imp_left hcut.mp)

end Extract

/-! ## computing the extract in bounded numbers -/

namespace Text

/-- The text between two offsets, if both lie between characters and in this order. -/
def slice? (text : List Char) (start stop : Nat) : Option (List Char) :=
  if stop < start then none
  else do
    let front ← cut? text stop
    let parts ← cut? front.1 start
    return parts.2

theorem slice?_append (before after : List Char) (stop : Nat) :
    slice? (before ++ after) (byteLength before) stop =
      if stop < byteLength before then none
      else (cut? after (stop - byteLength before)).map Prod.fst := by
  rw [slice?]
  split
  · rfl
  next hle =>
    cases hinside : cut? after (stop - byteLength before) with
    | none =>
        have hnone : cut? (before ++ after) stop = none := by
          by_contra hne
          obtain ⟨⟨first, second⟩, hcut⟩ := Option.ne_none_iff_exists'.mp hne
          obtain ⟨htext, hfirst⟩ := eq_append_of_cut? hcut
          obtain ⟨more, rfl, rfl⟩ := exists_eq_append_of_byteLength_le htext (by omega)
          rw [byteLength_append] at hfirst
          rw [← hfirst, Nat.add_sub_cancel_left, cut?_append] at hinside
          exact Option.some_ne_none _ hinside
        rw [hnone]
        rfl
    | some parts =>
        obtain ⟨rfl, hbytes⟩ := eq_append_of_cut? hinside
        have hstop : stop = byteLength (before ++ parts.1) := by
          rw [byteLength_append]
          omega
        rw [hstop, ← List.append_assoc, cut?_append]
        simp [cut?_append]

end Text

namespace Report

/-- Why a computation with bounded numbers and texts would stop. -/
inductive Fault where
  | belowZero
  | tooLarge
deriving DecidableEq

/-- A difference that must not fall below zero. -/
def minus (a b : Nat) : Except Fault Nat := if b ≤ a then .ok (a - b) else .error .belowZero

/-- A number that must not exceed a bound. -/
def atMost (bound n : Nat) : Except Fault Nat := if n ≤ bound then .ok n else .error .tooLarge

/-- A character so many times, in a text that must not become longer than a bound. -/
def repeated (bound n : Nat) (c : Char) : Except Fault (List Char) :=
  return List.replicate (← atMost bound n) c

/-- The lines of the extract for a range, from offsets, differences and slices.  The bounds are
those of the text at hand, and 64 bits for the end of the range. -/
def guarded (text : List Char) (range : Range) : Except Fault (Option (List Piece)) := do
  if range.isSynthetic then return none
  let some (before, _) := Text.cut? text range.start | return none
  let place := Place.ofBefore before
  let size := Text.byteLength text
  let content := (((Text.lines text)[← minus place.line 1]?).map Text.withoutEnd).getD []
  let lineStart ← minus range.start (Text.byteLength (Place.lastLine before))
  let lineStop ← atMost size (lineStart + Text.byteLength content)
  let stop ← atMost (2 ^ 64 - 1) range.stop
  let marked := (Text.slice? text range.start (min stop lineStop)).elim 1 (max 1 ·.length)
  let number := toString place.line
  let under ← repeated (max 1 size) number.length ' '
  let blanks ← repeated (max 1 size) (← minus place.column 1) ' '
  let carets ← repeated (max 1 size) marked '^'
  return some [plain "\n", styled .gutter (number ++ " |"), plain " ", .plain content, plain "\n",
    .plain under, plain " ", styled .gutter "|", plain " ", .styled .carets (blanks ++ carets)]

theorem minus_of_le {a b : Nat} (h : b ≤ a) : minus a b = .ok (a - b) := if_pos h

theorem atMost_of_le {bound n : Nat} (h : n ≤ bound) : atMost bound n = .ok n := if_pos h

theorem repeated_of_le {bound n : Nat} (h : n ≤ bound) (c : Char) :
    repeated bound n c = .ok (List.replicate n c) := by
  rw [repeated, atMost_of_le h]
  rfl

end Report

/-- The number of a line has no more digits than the text above it has bytes, or one. -/
theorem Place.length_line_le (before : List Char) :
    (toString (ofBefore before).line).length ≤ max 1 (Text.byteLength before) := by
  have hcount : before.count '\n' ≤ Text.byteLength before :=
    Nat.le_trans List.count_le_length (Text.length_le_byteLength before)
  generalize Text.byteLength before = size at hcount
  have hsize : size < 2 ^ size := Nat.lt_two_pow_self
  refine Nat.repr_length _ _ (Nat.lt_of_lt_of_le Nat.one_pos (Nat.le_max_left ..)) ?_
  cases size with
  | zero =>
      rw [ofBefore, Nat.le_zero.mp hcount]
      exact (by decide : 0 + 1 < 10 ^ max 1 0)
  | succ k =>
      have hpow : 2 ^ (k + 1) < 10 ^ (k + 1) :=
        Nat.pow_lt_pow_left (by decide) (Nat.succ_ne_zero k)
      rw [Nat.max_eq_right (Nat.le_add_left 1 k), ofBefore]
      dsimp only
      omega

theorem Extract.markedAt_le (before after : List Char) (range : Range) :
    markedAt before after range ≤ max 1 (Text.byteLength after) := by
  rw [markedAt]
  split
  · exact Nat.le_max_left ..
  · split
    · next inside rest hcut =>
        obtain ⟨rfl, _⟩ := Text.eq_append_of_cut? hcut
        have := Text.length_le_byteLength inside
        rw [Text.byteLength_append]
        omega
    · exact Nat.le_max_left ..

theorem Extract.markedAt_eq_slice (before after : List Char) (range : Range) :
    markedAt before after range =
      (Text.slice? (before ++ after) (Text.byteLength before) (min range.stop
        (Text.byteLength before - Text.byteLength (Place.lastLine before) +
          Text.byteLength (lineAt before after)))).elim 1 (max 1 ·.length) := by
  rw [Text.slice?_append, markedAt]
  split
  · rfl
  · cases Text.cut? after _ <;> rfl

/-- What is shown of a line ends within the text. -/
theorem Extract.byteLength_lineAt_le (before after : List Char) :
    Text.byteLength before - Text.byteLength (Place.lastLine before) +
      Text.byteLength (lineAt before after) ≤ Text.byteLength (before ++ after) := by
  have hlast := congrArg Text.byteLength (Place.line_at before after).1
  rw [Text.byteLength_append] at hlast
  rw [Text.byteLength_append]
  obtain ⟨inside, rest, rfl, hshown⟩ | hshort := lineAt_cases before after
  · rw [hshown, Text.byteLength_append, Text.byteLength_append]
    omega
  · omega

namespace Report

/-- Nothing falls below zero or becomes too large on the way to an extract. -/
theorem guarded_eq {text : List Char} {range : Range} (hstop : range.stop < 2 ^ 64) :
    guarded text range = .ok ((extract? (some text) (.source range)).map extractLines) := by
  rw [guarded, extract?, Extract.ofRange?]
  split
  · rfl
  cases hcut : Text.cut? text range.start with
  | none => rfl
  | some parts =>
      obtain ⟨before, after⟩ := parts
      obtain ⟨rfl, hstart⟩ := Text.eq_append_of_cut? hcut
      obtain ⟨habove, hline⟩ := Place.line_at before after
      have hlast := congrArg Text.byteLength habove
      rw [Text.byteLength_append, hstart] at hlast
      have hwhole := Text.byteLength_append before after
      -- each number on the way is in its bounds
      have hrow : minus (Place.ofBefore before).line 1 = .ok ((Place.ofBefore before).line - 1) :=
        minus_of_le (Nat.le_add_left ..)
      have hlineStart : minus range.start (Text.byteLength (Place.lastLine before)) = _ :=
        minus_of_le (by omega)
      have hlineStop := Extract.byteLength_lineAt_le before after
      rw [hstart] at hlineStop
      have hlineStop := atMost_of_le hlineStop
      have hend : atMost (2 ^ 64 - 1) range.stop = .ok range.stop :=
        atMost_of_le (Nat.le_pred_of_lt hstop)
      have hcolumn : minus (Place.ofBefore before).column 1 = .ok (Place.lastLine before).length :=
        minus_of_le (Nat.le_add_left ..)
      -- and what is computed with them is what is shown
      have hcontent : (((Text.lines (before ++ after))[(Place.ofBefore before).line - 1]?).map
          Text.withoutEnd).getD [] = Extract.lineAt before after := by
        rw [hline, Extract.lineAt_eq_withoutEnd]
        rfl
      have hmarked := Extract.markedAt_eq_slice before after range
      rw [hstart] at hmarked
      have hdigits := Place.length_line_le before
      have hmarks := Extract.markedAt_le before after range
      have hblanks := Text.length_le_byteLength (Place.lastLine before)
      simp only [hrow, hcontent, hlineStart, hlineStop, hend, hcolumn, ← hmarked, bind, Except.bind]
      rw [repeated_of_le (by omega), repeated_of_le (by omega), repeated_of_le (by omega)]
      rfl

/-! ## the report of an error in a program text -/

section

variable {source : String} {range : Range} {before after : List Char}

/-- A range that starts between characters is shown and told as a line and a column. -/
theorem of_cut (hlen : 0 < range.len)
    (hcut : Text.cut? source.toList range.start = some (before, after)) :
    extract? (some source.toList) (.source range) = some ⟨.ofBefore before,
        Extract.lineAt before after, Extract.markedAt before after range⟩ ∧
      locationText (some source.toList) (.source range) = (Place.ofBefore before).text := by
  have hparsed : range.isSynthetic = false := beq_false_of_ne (Nat.ne_of_gt hlen)
  constructor
  · simp [extract?, Extract.ofRange?, hparsed, hcut]
  · simp [locationText, Place.ofOffset?, hparsed, hcut]

/-- Any other range is told as it is, by the offsets of its start and its end. -/
theorem of_cut_none (hlen : 0 < range.len) (hcut : Text.cut? source.toList range.start = none) :
    extract? (some source.toList) (.source range) = none ∧
      locationText (some source.toList) (.source range) =
        "offset " ++ toString range.start ++ ".." ++ toString (range.start + range.len) := by
  have hparsed : range.isSynthetic = false := beq_false_of_ne (Nat.ne_of_gt hlen)
  constructor
  · simp [extract?, Extract.ofRange?, hcut]
  · simp [locationText, Place.ofOffset?, Location.text, Range.stop, hparsed, hcut]

end

/-- What begins with the same pieces goes on alike. -/
theorem renderAll_prefix_iff (color : Bool) (front first second : List Piece) :
    Piece.renderAll color (front ++ first) <+: Piece.renderAll color (front ++ second) ↔
      Piece.renderAll color first <+: Piece.renderAll color second := by
  rw [Piece.renderAll, Piece.renderAll, List.flatMap_append, List.flatMap_append]
  exact List.prefix_append_right_inj _

/-- Offsets are not told in the words of lines and columns, whatever is told before. -/
theorem not_prefix_offsets (front : List Piece) (place : Place) (start stop : Nat)
    (rest : List Piece) :
    ¬ Piece.renderAll false (front ++ [styled .location
        ("line " ++ toString place.line ++ ", column " ++ toString place.column)]) <+:
      Piece.renderAll false (front ++
        ([styled .location ("offset " ++ toString start ++ ".." ++ toString stop)] ++ rest)) := by
  intro h
  rw [renderAll_prefix_iff] at h
  simp [Piece.renderAll, Piece.render, styled] at h

/-- The report of an error in a program text opens with the kind of the error, its message and
its location, and has an extract exactly if the range starts between characters.  Exactly then
the location is a line and a column; otherwise it is the offsets of the range.  The extract has
that line in the gutter and shows the range, with the marks in the columns of what they mark.
Nothing in its computation falls below zero or becomes too large. -/
theorem shows_range (e : RuntimeError) (source : String) (range : Range)
    (hat : e.location = .source range) (hlen : 0 < range.len) (hstop : range.stop < 2 ^ 64) :
    let text := some source.toList
    let starts := (⟨range.start⟩ : String.Pos.Raw).IsValid source
    let opening := fun location : String =>
      [styled .category (category e.cause ++ ":"), plain " ", styled .message e.cause.message,
        plain "\n  ", styled .arrow "-->", plain " ", styled .location location]
    let lineAndColumn := fun place : Place =>
      "line " ++ toString place.line ++ ", column " ++ toString place.column
    let offsets := "offset " ++ toString range.start ++ ".." ++ toString (range.start + range.len)
    let advice := e.infos.flatMap infoLine ++ e.calls.reverse.flatMap (callLine text)
    ((extract? text e.location).isSome = true ↔ starts) ∧
      ((∃ place, ∀ color, Piece.renderAll color (opening (lineAndColumn place)) <+:
        (e.report source color).toList) ↔ starts) ∧
      (∀ x, extract? text e.location = some x →
        x.Shows source range ∧ ∀ color, e.report source color =
          String.ofList (Piece.renderAll color (opening (lineAndColumn x.place) ++
            [plain "\n", styled .gutter (toString x.place.line ++ " |"), plain " ",
              .plain x.content, plain "\n",
              .plain (List.replicate (toString x.place.line).length ' '), plain " ",
              styled .gutter "|", plain " ", .styled .carets
                (List.replicate (x.place.column - 1) ' ' ++ List.replicate x.marked '^')] ++
            advice))) ∧
      (¬ starts → ∀ color,
        e.report source color = String.ofList (Piece.renderAll color (opening offsets ++ advice))) ∧
      guarded source.toList range = .ok ((extract? text e.location).map extractLines) := by
  intro text starts opening lineAndColumn offsets advice
  have hpieces : ∀ color, e.report source color = String.ofList (Piece.renderAll color
      (opening (locationText text e.location) ++
        (extract? text e.location).toList.flatMap extractLines ++ advice)) := by
    intro color
    simp only [advice, ← List.append_assoc]
    rfl
  have hstarts := Text.exists_cut?_iff source range.start
  rw [hat] at hpieces ⊢
  cases hcut : Text.cut? source.toList range.start with
  | none =>
      have hnot : ¬ starts := fun h => by
        obtain ⟨before, after, hsome⟩ := hstarts.mpr h
        rw [hcut] at hsome
        exact Option.some_ne_none _ hsome.symm
      obtain ⟨hnone, hlocation⟩ := of_cut_none hlen hcut
      have hreport : ∀ color, e.report source color =
          String.ofList (Piece.renderAll color (opening offsets ++ advice)) := by
        intro color
        rw [hpieces, hnone, hlocation]
        simp [offsets]
      rw [hnone]
      refine ⟨by simpa using hnot, iff_of_false ?_ hnot, by simp, fun _ => hreport, ?_⟩
      · rintro ⟨place, hbegins⟩
        have hplain := hbegins false
        rw [hreport, String.toList_ofList] at hplain
        -- the openings differ in the location only, and its words differ at once
        exact not_prefix_offsets [_, _, _, _, _, _] place _ _ advice hplain
      · rw [guarded_eq hstop, hnone]
  | some parts =>
      obtain ⟨before, after⟩ := parts
      have hvalid : starts := hstarts.mp ⟨before, after, hcut⟩
      obtain ⟨hsome, hlocation⟩ := of_cut hlen hcut
      obtain ⟨htext, hbytes⟩ := Text.eq_append_of_cut? hcut
      have hreport : ∀ color, e.report source color = String.ofList (Piece.renderAll color
          (opening (lineAndColumn (.ofBefore before)) ++ (extractLines ⟨.ofBefore before,
            Extract.lineAt before after, Extract.markedAt before after range⟩ ++ advice))) := by
        intro color
        rw [hpieces, hsome, hlocation]
        simp [lineAndColumn, Place.text]
      rw [hsome]
      refine ⟨by simpa using hvalid, iff_of_true ⟨.ofBefore before, fun color => ?_⟩ hvalid,
        fun x hx => ?_, fun hnot => absurd hvalid hnot, ?_⟩
      · rw [hreport, String.toList_ofList, Piece.renderAll, Piece.renderAll, List.flatMap_append]
        exact List.prefix_append _ _
      · obtain rfl := Option.some.inj hx
        refine ⟨Extract.shows_of_cut hlen htext hbytes, fun color => ?_⟩
        rw [hreport, List.append_assoc]
        rfl
      · rw [guarded_eq hstop, hsome]

/-- A range that begins at a character of two bytes, on a line that a carriage return and a
line feed end. -/
theorem shows_range_accented :
    let source := "a = é()\r\nb"
    let range : Range := ⟨4, 3⟩
    let x : Extract := ⟨⟨1, 5⟩, "a = é()".toList, 2⟩
    let e : RuntimeError := ⟨.source range, .custom "no such function", [], []⟩
    extract? (some source.toList) (.source range) = some x ∧ x.Shows source range ∧
      guarded source.toList range = .ok (some (extractLines x)) ∧
      e.report source false =
        "Runtime error: no such function\n  --> line 1, column 5\n1 | a = é()\n  |     ^^" := by
  intro source range x e
  have hx : extract? (some source.toList) (.source range) = some x := by decide
  obtain ⟨_, _, hshows, _, hguarded⟩ := shows_range e source range rfl (by decide) (by decide)
  obtain ⟨hshown, hreport⟩ := hshows x hx
  refine ⟨hx, hshown, ?_, ?_⟩
  · rw [hguarded, hx]
    rfl
  · rw [hreport false]
    decide

end Report

end FieldScript
