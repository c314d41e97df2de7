import FieldScript.Text.Printable
import FieldScript.Text.Extending

/-!
# FieldScript.Text.Quoted

Texts in double quotes.

A quoted text is unambiguous on a screen: what would end it, control it or hide in
it is escaped.  The common control characters have a letter, and any other
character that is not shown as itself is given by its number.
-/

namespace FieldScript

namespace Text

/-- A number in lower-case hexadecimal digits. -/
def hex (n : Nat) : List Char := Nat.toDigits 16 n

/-- The character by its number, as in `\u{301}`. -/
def byNumber (c : Char) : List Char := "\\u\x7b".toList ++ hex c.toNat ++ "\x7d".toList

/-- A character of a quoted text. -/
def escape (c : Char) : List Char :=
  if c = '\x00' then "\\0".toList
  else if c = '\t' then "\\t".toList
  else if c = '\r' then "\\r".toList
  else if c = '\n' then "\\n".toList
  else if c = '"' then "\\\"".toList
  else if c = '\\' then "\\\\".toList
  else if isExtending c then byNumber c
  else if isPrintable c then [c]
  else byNumber c

/-- The text in double quotes. -/
def quote (s : String) : String :=
  String.ofList ('"' :: (s.toList.flatMap escape ++ ['"']))

end Text

end FieldScript
