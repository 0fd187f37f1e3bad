import Accelerator.Text.CharClass

/-!
# Lines and words

Cutting a text into lines and words, trimming blanks, and looking for a pattern.
-/

namespace Accelerator.Text

/-- The parts of a text between the characters of a class; the parts may be empty, and there is at least one. -/
def splitAtEach (cut : Char → Bool) : List Char → List (List Char)
  | [] => [[]]
  | c :: r =>
    if cut c then [] :: splitAtEach cut r
    else
      match splitAtEach cut r with
      | [] => [[c]]
      | part :: parts => (c :: part) :: parts

/-- A line without the carriage return at its end. -/
def dropReturn (line : List Char) : List Char :=
  if line.getLast? = some '\r' then line.dropLast else line

/-- The lines of a text.  A newline ends a line, together with a carriage return before it; what follows the last
newline is a line if it is not empty. -/
def lineList (s : List Char) : List (List Char) :=
  let parts := splitAtEach (· == '\n') s
  let last := parts.getLast?.getD []
  parts.dropLast.map dropReturn ++ (if last.isEmpty then [] else [last])

/-- A text without the blanks at its start. -/
def dropBlankStart (s : List Char) : List Char := s.dropWhile isBlank

/-- A text without the blanks at its end. -/
def dropBlankEnd (s : List Char) : List Char := (s.reverse.dropWhile isBlank).reverse

/-- Whether a pattern occurs in a text. -/
def occursIn (pattern : List Char) : List Char → Bool
  | [] => pattern.isEmpty
  | c :: r => pattern.isPrefixOf (c :: r) || occursIn pattern r

/-- What follows `start` in a text that begins with it. -/
def after? (start s : List Char) : Option (List Char) :=
  if start.isPrefixOf s then some (s.drop start.length) else none

/-! ### On strings -/

/-- The lines of a text. -/
def lines (s : String) : List String := (lineList s.toList).map String.ofList

/-- A text without the blanks at its ends. -/
def trim (s : String) : String := String.ofList (dropBlankEnd (dropBlankStart s.toList))

/-- A text without the blanks at its end. -/
def trimRight (s : String) : String := String.ofList (dropBlankEnd s.toList)

/-- The words of a text: what stands between blanks. -/
def words (s : String) : List String :=
  ((splitAtEach isBlank s.toList).filter (!·.isEmpty)).map String.ofList

/-- The words whose condition holds. -/
def wordsWhere (words : List (Bool × String)) : List String :=
  words.filterMap fun (b, w) => if b then some w else none

/-- Whether a pattern occurs in a line. -/
def contains (line pattern : String) : Bool := occursIn pattern.toList line.toList

/-- What follows `start` in a text that begins with it. -/
def afterStart? (start s : String) : Option String := (after? start.toList s.toList).map String.ofList

end Accelerator.Text
