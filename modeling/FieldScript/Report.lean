import FieldScript.Error
import FieldScript.Report.Extract
import FieldScript.Report.Piece

/-!
# FieldScript.Report

Errors as reports for a reader.

A report opens with the kind of the error, its message and its location.  Where the
program text is at hand, locations are lines and columns and the line of the error
is shown with the range marked.  Advice follows, and then the calls that were in
progress, the latest first.
-/

namespace FieldScript

namespace Report

/-! ## parts -/

/-- The heading that a cause comes under. -/
def category : Cause → String
  | .undefinedField _ _ => "Undefined field"
  | .argument _ => "Argument error"
  | .custom _ | .notAnInstance _ | .undefinedVariable _ | .libraryItemAssignment _
  | .notCallable _ | .notABoolean _ => "Runtime error"

/-- A location as a line and a column where the program text has it. -/
def locationText (source : Option (List Char)) (location : Location) : String :=
  match location, source with
  | .source range, some text =>
    if range.isSynthetic then location.text
    else
      match Place.ofOffset? text range.start with
      | some place => place.text
      | none => location.text
  | _, _ => location.text

def plain (text : String) : Piece := .plain text.toList

def styled (style : Style) (text : String) : Piece := .styled style text.toList

/-- The first two lines. -/
def heading (source : Option (List Char)) (e : RuntimeError) : List Piece :=
  [styled .category (category e.cause ++ ":"), plain " ", styled .message e.cause.message,
    plain "\n  ", styled .arrow "-->", plain " ",
    styled .location (locationText source e.location)]

/-- The line of the error with a gutter in front and the marks below it. -/
def extractLines (x : Extract) : List Piece :=
  let number := toString x.place.line
  [plain "\n", styled .gutter (number ++ " |"), plain " ", .plain x.content, plain "\n",
    .plain (List.replicate number.length ' '), plain " ", styled .gutter "|", plain " ",
    .styled .carets
      (List.replicate (x.place.column - 1) ' ' ++ List.replicate x.marked '^')]

/-- The extract for a location, if there is one. -/
def extract? (source : Option (List Char)) (location : Location) : Option Extract :=
  match location, source with
  | .source range, some text => Extract.ofRange? text range
  | _, _ => none

def infoLabel : InfoKind → String
  | .note => "note:"
  | .tip => "tip:"

/-- A line of advice. -/
def infoLine (info : Info) : List Piece :=
  [plain "\n  = ", styled .label (infoLabel info.kind), plain (" " ++ info.text)]

/-- A call in progress. -/
def callLine (source : Option (List Char)) (entry : CallEntry) : List Piece :=
  [plain "\n  = ", styled .label "note:", plain " in native function '",
    styled .function entry.fn, plain "' called at: ",
    styled .location (locationText source entry.site)]

/-! ## the whole report -/

/-- The pieces of a report. -/
def pieces (e : RuntimeError) (source : Option (List Char)) : List Piece :=
  heading source e
    ++ (extract? source e.location).toList.flatMap extractLines
    ++ e.infos.flatMap infoLine
    ++ e.calls.reverse.flatMap (callLine source)

end Report

/-- The report of an error, given the program text if it is at hand. -/
def RuntimeError.report (e : RuntimeError) (source : Option String) (color : Bool) : String :=
  String.ofList (Piece.renderAll color (Report.pieces e (source.map String.toList)))

end FieldScript
