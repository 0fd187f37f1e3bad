import Accelerator.Text.CharClass

/-!
# Characters in messages

A message shows a character between single quotes.  The null character, tab, carriage return, newline, single quote
and backslash have short escapes; a character without a glyph of its own is shown by its number in hexadecimal;
every other character stands for itself.
-/

namespace Accelerator.Text

/-- The number of a character between braces, in lowercase hexadecimal without leading zeros. -/
def codeEscape (c : Char) : String :=
  "\\u\x7b" ++ String.ofList (Nat.toDigits 16 c.toNat) ++ "\x7d"

/-- A character as it stands between single quotes. -/
def escaped (c : Char) : String :=
  match c with
  | '\x00' => "\\0"
  | '\t' => "\\t"
  | '\r' => "\\r"
  | '\n' => "\\n"
  | '\'' => "\\'"
  | '\\' => "\\\\"
  | _ => if isPrintable c then c.toString else codeEscape c

/-- What a reader found next: a character, or `None` at the end of the text. -/
def shown : Option Char → String
  | none => "None"
  | some c => "Some('" ++ escaped c ++ "')"

end Accelerator.Text
