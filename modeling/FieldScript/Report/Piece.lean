/-!
# FieldScript.Report.Piece

Texts with and without color.

A report is a list of pieces, some of which have a style.  Rendered with color, a
styled piece stands between the escape sequence that opens its style and the one
that resets it; where the text of the piece itself contains a reset, the style is
opened again after it.  Rendered without color, only the texts remain.
-/

namespace FieldScript

/-! ## styles -/

/-- How a piece is emphasised. -/
inductive Style where
  | category
  | message
  | arrow
  | location
  | gutter
  | carets
  | label
  | function
deriving DecidableEq

/-- The parameters of the escape sequence that opens a style. -/
def Style.code : Style → String
  | .category => "91"
  | .message => "1;91"
  | .arrow => "94"
  | .location => "95"
  | .gutter => "94"
  | .carets => "91"
  | .label => "36"
  | .function => "93"

/-- The escape sequence with these parameters. -/
def escapeSequence (code : List Char) : List Char := '\x1b' :: '[' :: code ++ ['m']

/-- Opens a style. -/
def Style.opening (s : Style) : List Char := escapeSequence s.code.toList

/-- Goes back to plain text. -/
def resetSequence : List Char := escapeSequence ['0']

/-! ## pieces -/

/-- A text, possibly with a style. -/
inductive Piece where
  | plain (text : List Char)
  | styled (style : Style) (text : List Char)
deriving DecidableEq

/-- A text with another one put after every reset in it. -/
def afterResets (opening : List Char) : List Char → List Char
  | '\x1b' :: '[' :: '0' :: 'm' :: rest => resetSequence ++ opening ++ afterResets opening rest
  | c :: rest => c :: afterResets opening rest
  | [] => []

namespace Piece

/-- A piece as it is written. -/
def render (color : Bool) : Piece → List Char
  | .plain text => text
  | .styled style text =>
    if color then style.opening ++ afterResets style.opening text ++ resetSequence else text

/-- Pieces one after the other. -/
def renderAll (color : Bool) (pieces : List Piece) : List Char :=
  pieces.flatMap (render color)

end Piece

end FieldScript
