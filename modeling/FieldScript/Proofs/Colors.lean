import FieldScript.Report
import FieldScript.Proofs.Escapes

/-!
# FieldScript.Proofs.Colors

Colors only decorate.

Texts of programs and hosts may contain escape sequences, whole or broken off, and a report puts
its own next to them.  In a report, a blank, a line feed or a quote stands wherever a styled
piece meets a plain one (`Report.apart_pieces`), so no sequence runs over the end of a piece, and
what is left of a report without its sequences does not depend on colors
(`RuntimeError.colors_only_decorate`).

A report without color has no escape characters of its own (`Report.clean_pieces`).  If none
come with the error and the program, a report with color is thus, without its sequences, the
report without color.
-/

namespace FieldScript

namespace Report

/-! ## the pieces of a report are apart -/

/-- Pieces that are apart, the first of which starts with a character that no escape sequence
contains. -/
structure Lines (pieces : List Piece) : Prop where
  apart : pieces.IsChain Piece.Apart
  opens : ∀ p ∈ pieces.head?, p.text.head?.any Piece.separates = true

theorem Lines.nil : Lines [] := ⟨.nil, nofun⟩

/-- Lines can follow any pieces. -/
theorem Lines.after {pieces rest : List Piece} (hrest : Lines rest)
    (h : pieces.IsChain Piece.Apart) : (pieces ++ rest).IsChain Piece.Apart := by
  refine List.isChain_append.mpr ⟨h, hrest.apart, ?_⟩
  intro p _ q hq
  exact .inr (hrest.opens q hq)

/-- Lines can be put after each other. -/
theorem Lines.append {pieces rest : List Piece} (h : Lines pieces) (hrest : Lines rest) :
    Lines (pieces ++ rest) where
  apart := hrest.after h.apart
  opens := by
    cases pieces with
    | nil => exact hrest.opens
    | cons p pieces => exact h.opens

/-- So can any number of lines. -/
theorem lines_flatMap {α : Type} {line : α → List Piece} (h : ∀ a, Lines (line a))
    (l : List α) : Lines (l.flatMap line) := by
  induction l with
  | nil => exact .nil
  | cons a rest ih => exact (h a).append ih

/-- Each piece of the heading is separated from the next. -/
theorem apart_heading (source : Option (List Char)) (e : RuntimeError) :
    (heading source e).IsChain Piece.Apart := by
  simp [heading, plain, styled, Piece.Apart]

/-- The extract is lines. -/
theorem lines_extractLines (x : Extract) : Lines (extractLines x) where
  apart := by simp [extractLines, plain, styled, Piece.Apart]
  opens := by simp [extractLines, plain]

/-- Advice is a line. -/
theorem lines_infoLine (info : Info) : Lines (infoLine info) where
  apart := by simp [infoLine, plain, styled, Piece.Apart]
  opens := by simp [infoLine, plain]

/-- A call in progress is a line. -/
theorem lines_callLine (source : Option (List Char)) (entry : CallEntry) :
    Lines (callLine source entry) where
  apart := by simp [callLine, plain, styled, Piece.Apart]
  opens := by simp [callLine, plain]

/-- The pieces of a whole report are apart: the heading, and lines after it. -/
theorem apart_pieces (e : RuntimeError) (source : Option (List Char)) :
    (pieces e source).IsChain Piece.Apart := by
  have hextract := (lines_flatMap lines_extractLines (extract? source e.location).toList).after
    (apart_heading source e)
  have hinfos := (lines_flatMap lines_infoLine e.infos).after hextract
  exact (lines_flatMap (lines_callLine source) e.calls.reverse).after hinfos

end Report

/-! ## texts without escape characters -/

/-- The texts in a cause that come from a program or from a function. -/
def Cause.texts : Cause → List String
  | .custom text => [text]
  | .undefinedField cls field => [cls, field]
  | .undefinedVariable name | .libraryItemAssignment name => [name]
  | .argument (.wrongArity fn _ _) | .argument (.wrongType fn _ _ _) => [fn]
  | .notAnInstance _ | .notCallable _ | .notABoolean _ => []

def Location.texts : Location → List String
  | .source _ => []
  | .internal producer => [producer]

/-- All texts that come with an error. -/
def RuntimeError.texts (e : RuntimeError) : List String :=
  e.cause.texts ++ e.location.texts ++ e.infos.map (·.text) ++
    e.calls.flatMap fun entry => entry.fn :: entry.site.texts

/-- The text contains no escape character. -/
def EscapeFree (text : String) : Prop := '\x1b' ∉ text.toList

instance (text : String) : Decidable (EscapeFree text) :=
  inferInstanceAs (Decidable ('\x1b' ∉ text.toList))

/-- A text put together of two is free of escapes if both are. -/
theorem escapeFree_append (text rest : String) :
    EscapeFree (text ++ rest) ↔ EscapeFree text ∧ EscapeFree rest := by
  simp [EscapeFree, String.toList_append]

/-- Numbers are written in digits. -/
theorem escapeFree_toString (n : Nat) : EscapeFree (toString n) := by
  intro h
  have hdigit : '\x1b'.isDigit = true :=
    Nat.isDigit_of_mem_toDigits (by decide) (Nat.le_refl 10) (Nat.toList_repr ▸ h)
  cases hdigit

theorem ValueType.escapeFree_text (type : ValueType) : EscapeFree type.text := by
  cases type <;> simp [text, EscapeFree]

/-- The message on a malformed call has escapes only where the texts in it have. -/
theorem ArgumentError.escapeFree_message {error : ArgumentError}
    (h : ∀ text ∈ (Cause.argument error).texts, EscapeFree text) : EscapeFree error.message := by
  cases error with
  | wrongArity fn expected got =>
      have hfn := h fn List.mem_cons_self
      unfold message
      simp +decide only [escapeFree_append, hfn, escapeFree_toString, and_self]
  | wrongType fn position expected found =>
      have hfn := h fn List.mem_cons_self
      unfold message
      simp +decide only [escapeFree_append, hfn, escapeFree_toString, ValueType.escapeFree_text,
        and_self]

/-- A message has no escape characters of its own. -/
theorem Cause.escapeFree_message {cause : Cause} (h : ∀ text ∈ cause.texts, EscapeFree text) :
    EscapeFree cause.message := by
  cases cause with
  | argument error => exact ArgumentError.escapeFree_message h
  | custom text => exact h text List.mem_cons_self
  | undefinedField cls field =>
      have hcls := h cls List.mem_cons_self
      have hfield := h field (List.mem_cons_of_mem _ List.mem_cons_self)
      unfold message
      simp +decide only [escapeFree_append, hcls, hfield, and_self]
  | undefinedVariable name | libraryItemAssignment name =>
      have hname := h name List.mem_cons_self
      unfold message
      simp +decide only [escapeFree_append, hname, and_self]
  | notAnInstance | notCallable | notABoolean =>
      unfold message
      simp +decide only [escapeFree_append, ValueType.escapeFree_text, and_self]

/-- A location has escapes only in the name of its producer. -/
theorem Location.escapeFree_text {location : Location}
    (h : ∀ text ∈ location.texts, EscapeFree text) : EscapeFree location.text := by
  cases location with
  | internal producer =>
      have hproducer := h producer List.mem_cons_self
      simp +decide only [text, escapeFree_append, hproducer, and_self]
  | source r =>
      rw [text]
      split
      · decide
      · simp +decide only [escapeFree_append, escapeFree_toString, and_self]

theorem Place.escapeFree_text (p : Place) : EscapeFree p.text := by
  simp +decide only [text, escapeFree_append, escapeFree_toString, and_self]

namespace Report

theorem escapeFree_category (cause : Cause) : EscapeFree (category cause) := by
  cases cause <;> simp [category, EscapeFree]

theorem escapeFree_infoLabel (kind : InfoKind) : EscapeFree (infoLabel kind) := by
  cases kind <;> simp [infoLabel, EscapeFree]

theorem escapeFree_locationText (source : Option (List Char)) {location : Location}
    (h : ∀ text ∈ location.texts, EscapeFree text) : EscapeFree (locationText source location) := by
  have htext := Location.escapeFree_text h
  unfold locationText
  split
  · split
    · exact htext
    · split
      · exact Place.escapeFree_text _
      · exact htext
  · exact htext

/-- The line that is shown is made of characters of the text. -/
theorem content_subset {text : List Char} {range : Range} {x : Extract}
    (h : Extract.ofRange? text range = some x) : x.content ⊆ text := by
  rw [Extract.ofRange?] at h
  split at h
  · cases h
  · obtain ⟨⟨before, after⟩, hcut, rfl⟩ := Option.map_eq_some_iff.mp h
    rw [(Text.eq_append_of_cut? hcut).1]
    have hline : Extract.lineAt before after ⊆ Place.lastLine before ++ Place.restOfLine after := by
      rw [Extract.lineAt, Extract.stripEnd]
      split
      · exact List.dropLast_subset _
      · exact List.Subset.refl _
    have hlast : Place.lastLine before ⊆ before := by
      intro c hc
      rw [Place.lastLine, List.mem_reverse] at hc
      exact List.mem_reverse.mp (List.takeWhile_subset _ hc)
    have hrest : Place.restOfLine after ⊆ after := List.takeWhile_subset _
    intro c hc
    exact List.mem_append.mpr ((List.mem_append.mp (hline hc)).imp (@hlast c) (@hrest c))

/-- None of the pieces contains an escape character. -/
def Clean (pieces : List Piece) : Prop := ∀ p ∈ pieces, '\x1b' ∉ p.text

theorem clean_nil : Clean [] := nofun

/-- Pieces are clean one by one. -/
theorem clean_plainChars (text : List Char) (rest : List Piece) :
    Clean (.plain text :: rest) ↔ '\x1b' ∉ text ∧ Clean rest := List.forall_mem_cons

theorem clean_styledChars (style : Style) (text : List Char) (rest : List Piece) :
    Clean (.styled style text :: rest) ↔ '\x1b' ∉ text ∧ Clean rest := List.forall_mem_cons

theorem clean_plain (text : String) (rest : List Piece) :
    Clean (plain text :: rest) ↔ EscapeFree text ∧ Clean rest := clean_plainChars _ rest

theorem clean_styled (style : Style) (text : String) (rest : List Piece) :
    Clean (styled style text :: rest) ↔ EscapeFree text ∧ Clean rest :=
  clean_styledChars style _ rest

/-- Clean pieces can be put after clean pieces. -/
theorem clean_append (pieces rest : List Piece) :
    Clean (pieces ++ rest) ↔ Clean pieces ∧ Clean rest := by
  simp only [Clean, List.forall_mem_append]

/-- So can any number of them. -/
theorem clean_flatMap {α : Type} {line : α → List Piece} {l : List α}
    (h : ∀ a ∈ l, Clean (line a)) : Clean (l.flatMap line) := by
  intro p hp
  obtain ⟨a, ha, hp⟩ := List.mem_flatMap.mp hp
  exact h a ha p hp

/-- A heading is clean if the texts of the error are. -/
theorem clean_heading {source : Option (List Char)} {e : RuntimeError}
    (h : ∀ text ∈ e.texts, EscapeFree text) : Clean (heading source e) := by
  have hcause : EscapeFree e.cause.message :=
    Cause.escapeFree_message fun text hmem => h text (by simp [RuntimeError.texts, hmem])
  have hlocation : EscapeFree (locationText source e.location) :=
    escapeFree_locationText source fun text hmem => h text (by simp [RuntimeError.texts, hmem])
  simp +decide only [heading, clean_plain, clean_styled, clean_nil, escapeFree_append,
    escapeFree_category, hcause, hlocation, and_self]

/-- An extract is clean if the line that it shows is. -/
theorem clean_extractLines {x : Extract} (h : '\x1b' ∉ x.content) : Clean (extractLines x) := by
  have hblanks (n : Nat) : '\x1b' ∉ List.replicate n ' ' := by simp
  have hmarks (n m : Nat) : '\x1b' ∉ List.replicate n ' ' ++ List.replicate m '^' := by simp
  simp +decide only [extractLines, clean_plain, clean_styled, clean_plainChars, clean_styledChars,
    clean_nil, escapeFree_append, escapeFree_toString, h, hblanks, hmarks, not_false_eq_true,
    and_self]

/-- An extract is one of the program text. -/
theorem exists_of_extract? {source : Option (List Char)} {location : Location} {x : Extract}
    (h : extract? source location = some x) : ∃ text ∈ source, x.content ⊆ text := by
  unfold extract? at h
  split at h
  · exact ⟨_, rfl, content_subset h⟩
  · cases h

theorem clean_infoLine {info : Info} (h : EscapeFree info.text) : Clean (infoLine info) := by
  simp +decide only [infoLine, clean_plain, clean_styled, clean_nil, escapeFree_append,
    escapeFree_infoLabel, h, and_self]

/-- A line on a call is clean if the name of the function and the place are. -/
theorem clean_callLine (source : Option (List Char)) {entry : CallEntry}
    (h : ∀ text ∈ entry.fn :: entry.site.texts, EscapeFree text) :
    Clean (callLine source entry) := by
  have hfn := h entry.fn List.mem_cons_self
  have hsite : EscapeFree (locationText source entry.site) :=
    escapeFree_locationText source fun text hmem => h text (List.mem_cons_of_mem _ hmem)
  simp +decide only [callLine, clean_plain, clean_styled, clean_nil, hfn, hsite, and_self]

/-- A report without color has no escape characters but those of the error and of the program
text. -/
theorem clean_pieces {e : RuntimeError} {source : Option (List Char)}
    (he : ∀ text ∈ e.texts, EscapeFree text) (hs : ∀ text ∈ source, '\x1b' ∉ text) :
    Clean (pieces e source) := by
  have hextract : Clean ((extract? source e.location).toList.flatMap extractLines) := by
    refine clean_flatMap fun x hx => clean_extractLines fun hmem => ?_
    obtain ⟨text, htext, hsubset⟩ := exists_of_extract? (Option.mem_toList.mp hx)
    exact hs text htext (hsubset hmem)
  have hinfos : Clean (e.infos.flatMap infoLine) :=
    clean_flatMap fun info hinfo => clean_infoLine (he _ (by
      simp only [RuntimeError.texts, List.mem_append, List.mem_map]
      exact .inl (.inr ⟨info, hinfo, rfl⟩)))
  have hcalls : Clean (e.calls.reverse.flatMap (callLine source)) :=
    clean_flatMap fun entry hentry => clean_callLine source fun text htext => he _ (by
      simp only [RuntimeError.texts, List.mem_append, List.mem_flatMap]
      exact .inr ⟨entry, List.mem_reverse.mp hentry, htext⟩)
  simp only [pieces, clean_append]
  exact ⟨⟨⟨clean_heading he, hextract⟩, hinfos⟩, hcalls⟩

end Report

/-! ## colors -/

/-- With its escape sequences deleted, a report with color is the report without color, with its
escape sequences deleted.  If no text of the error or of the program has an escape character, no
sequence is in the latter. -/
theorem RuntimeError.colors_only_decorate (e : RuntimeError) (source : Option String) :
    let colored := (e.report source true).toList
    let uncolored := (e.report source false).toList
    withoutEscapes colored = withoutEscapes uncolored ∧
      ((∀ text ∈ e.texts ++ source.toList, EscapeFree text) →
        withoutEscapes colored = uncolored) := by
  intro colored uncolored
  have hapart := Report.apart_pieces e (source.map String.toList)
  have hsame : withoutEscapes colored = withoutEscapes uncolored := by
    simp only [colored, uncolored, report, String.toList_ofList]
    rw [Piece.withoutEscapes_renderAll true hapart, Piece.withoutEscapes_renderAll false hapart]
  refine ⟨hsame, fun hfree => hsame.trans (withoutEscapes_eq_self ?_)⟩
  have hclean : Report.Clean (Report.pieces e (source.map String.toList)) := by
    refine Report.clean_pieces (fun text h => hfree text (List.mem_append_left _ h)) ?_
    intro text htext
    obtain ⟨program, hprogram, rfl⟩ := Option.map_eq_some_iff.mp htext
    exact hfree program (List.mem_append_right _ (Option.mem_toList.mpr hprogram))
  intro hmem
  simp only [uncolored, report, String.toList_ofList, Piece.renderAll, List.mem_flatMap] at hmem
  obtain ⟨p, hp, hmem⟩ := hmem
  exact hclean p hp (p.render_false ▸ hmem)

/-- A message that ends in the middle of an escape sequence, and a line of the program that
starts as one would go on. -/
theorem RuntimeError.colors_only_decorate_broken :
    let plain : RuntimeError :=
      ⟨.source ⟨4, 1⟩, .undefinedVariable "x", [⟨"apply", .internal "host"⟩], [⟨.tip, "declare"⟩]⟩
    let broken : RuntimeError :=
      ⟨.source ⟨4, 1⟩, .custom "\x1b[0m \x1b[3", [⟨"31m\x1b[", .internal "host"⟩], []⟩
    let report (e : RuntimeError) (source : String) (color : Bool) :=
      (e.report (some source) color).toList
    '\x1b' ∈ report plain "y = x" true ∧
      withoutEscapes (report plain "y = x" true) = report plain "y = x" false ∧
      '\x1b' ∈ report broken "1m\x1b[m" false ∧
      withoutEscapes (report broken "1m\x1b[m" true) =
        withoutEscapes (report broken "1m\x1b[m" false) := by
  intro plain broken report
  have hfree : ∀ text ∈ plain.texts ++ (some "y = x").toList, EscapeFree text := by decide +kernel
  have hcolored : '\x1b' ∈ report plain "y = x" true := by
    simp [report, RuntimeError.report, Report.pieces, Report.heading, Report.styled,
      Piece.renderAll, Piece.render, Style.opening, escapeSequence]
  have hmessage : broken.cause.message = "\x1b[0m \x1b[3" := rfl
  have hbroken : '\x1b' ∈ report broken "1m\x1b[m" false := by
    simp [report, RuntimeError.report, Report.pieces, Report.heading, Report.styled,
      Piece.renderAll, Piece.render, hmessage]
  exact ⟨hcolored, (plain.colors_only_decorate (some "y = x")).2 hfree, hbroken,
    (broken.colors_only_decorate (some "1m\x1b[m")).1⟩

end FieldScript
