import Accelerator.Source.Cause

/-!
# Tokens of a program text

Blanks and comments, single characters, names, quoted names and numbers.  A comment runs from a semicolon to the
end of its line.  Between tokens blanks, newlines and comments are skipped; within an instruction a newline or a
comment ends it, so there only the blanks of the line are.
-/

namespace Accelerator.Source

/-- Reads a value from a program text. -/
abbrev Reader := Scanner Char Cause

open Scanner

/-! ### Blanks -/

/-- The text after blanks, newlines and comments; `inComment` says that it begins inside a comment. -/
def dropBlanksFrom (inComment : Bool) : List Char → List Char
  | [] => []
  | c :: r =>
    if inComment then dropBlanksFrom (c != '\n') r
    else if c == ';' then dropBlanksFrom true r
    else if Text.isBlank c then dropBlanksFrom false r
    else c :: r

/-- The text after blanks, newlines and comments. -/
def dropBlanks (s : List Char) : List Char := dropBlanksFrom false s

/-- The text after the blanks of the current line. -/
def dropInline (s : List Char) : List Char := s.dropWhile fun c => Text.isBlank c && c != '\n'

private theorem length_dropBlanksFrom_le (b : Bool) (s : List Char) : (dropBlanksFrom b s).length ≤ s.length := by
  fun_induction dropBlanksFrom b s <;> grind

private theorem length_dropBlanks_le (s : List Char) : (dropBlanks s).length ≤ s.length :=
  length_dropBlanksFrom_le false s

theorem length_dropWhile_le (p : Char → Bool) (s : List Char) : (s.dropWhile p).length ≤ s.length :=
  (List.dropWhile_sublist p).length_le

private theorem length_dropInline_le (s : List Char) : (dropInline s).length ≤ s.length :=
  length_dropWhile_le _ s

/-- Skips blanks, newlines and comments. -/
def blanks : Reader Unit := skip dropBlanks

/-- Skips the blanks of the current line. -/
def inlineBlanks : Reader Unit := skip dropInline

theorem keeps_blanks : Keeps blanks := keeps_skip length_dropBlanks_le

theorem keeps_inlineBlanks : Keeps inlineBlanks := keeps_skip length_dropInline_le

/-! ### Single characters -/

/-- Takes the character `c` if it comes next, and says whether it did. -/
def accept (c : Char) : Reader Bool := fun s =>
  match dropBlanks s with
  | [] => .ok (false, [])
  | d :: r => if d = c then .ok (true, r) else .ok (false, d :: r)

/-- Takes the character `c`, which has to come next. -/
def expect (c : Char) : Reader Unit := fun s =>
  match dropBlanks s with
  | [] => .error ⟨[], .expectedChar c none⟩
  | d :: r => if d = c then .ok ((), r) else .error ⟨d :: r, .expectedChar c (some d)⟩

/-- After an entry of a list: a comma, or the bracket `close` that ends the list and stays in the text. -/
def separator (close : Char) (cause : Cause) : Reader Unit := do
  let comma ← accept ','
  let next ← peek
  refuse (!comma && next != some close) cause

theorem keeps_accept (c : Char) : Keeps (accept c) := by
  intro s a r h
  have := length_dropBlanks_le s
  unfold accept at h
  grind

theorem consumes_expect (c : Char) : Consumes (expect c) := by
  intro s a r h
  have := length_dropBlanks_le s
  unfold expect at h
  grind

theorem keeps_separator (close : Char) (cause : Cause) : Keeps (separator close cause) :=
  (keeps_accept _).bind fun _ => keeps_peek.bind fun _ => keeps_refuse _ _

/-! ### Names -/

/-- The characters that a name may begin with. -/
def startsName (c : Char) : Bool := Text.isAlphabetic c || c == '_' || c == '.'

/-- The characters that a name may go on with. -/
def continuesName (c : Char) : Bool := Text.isAlphanumeric c || c == '_' || c == '.' || c == '$'

/-- The characters that a quoted name may hold. -/
def inQuotes (c : Char) : Bool := c != '"' && c != '\n'

/-- A plain name. -/
def name : Reader String := fun s =>
  match dropBlanks s with
  | [] => .error ⟨[], .expectedName none⟩
  | c :: r =>
    if startsName c then .ok (String.ofList (c :: r.takeWhile continuesName), r.dropWhile continuesName)
    else .error ⟨c :: r, .expectedName (some c)⟩

/-- What follows an opening quote: the name up to the closing quote on the same line. -/
def quotedName : Reader String := fun s =>
  match s.dropWhile inQuotes with
  | '"' :: r =>
    let body := s.takeWhile inQuotes
    if body.isEmpty then .error ⟨r, .emptyName⟩ else .ok (String.ofList body, r)
  | r => .error ⟨r, .unterminatedName⟩

/-- The name of a function, a global or a marker, plain or quoted. -/
def symbol : Reader String := do
  blanks
  if (← peek) == some '"' then
    advance
    quotedName
  else
    name

/-- The name of a local value, after its percent sign. -/
def valueName : Reader String := do
  expect '%'
  name

theorem consumes_name : Consumes name := by
  intro s a r h
  have := length_dropBlanks_le s
  unfold name at h
  split at h
  · simp at h
  · rename_i c t e
    have := length_dropWhile_le continuesName t
    grind

private theorem consumes_quotedName : Consumes quotedName := by
  intro s a r h
  have := length_dropWhile_le inQuotes s
  unfold quotedName at h
  grind

theorem consumes_symbol : Consumes symbol := by
  refine keeps_blanks.bind_consumes fun _ => keeps_peek.bind_consumes fun _ => ?_
  split
  · exact keeps_advance.bind_consumes fun _ => consumes_quotedName
  · exact consumes_name

theorem consumes_valueName : Consumes valueName := (consumes_expect _).bind fun _ => consumes_name.keeps

/-! ### Numbers -/

/-- The digits of a number in base ten or sixteen. -/
def isDigitIn (base : Nat) (c : Char) : Bool :=
  c.isDigit || (base == 16 && (('a' ≤ c && c ≤ 'f') || ('A' ≤ c && c ≤ 'F')))

/-- The value of a digit. -/
def digitValue (c : Char) : Nat :=
  if c.isDigit then c.toNat - '0'.toNat
  else if c ≤ 'F' then c.toNat - 'A'.toNat + 10
  else c.toNat - 'a'.toNat + 10

/-- The value of a list of digits, the most significant first. -/
def digitsValue (base : Nat) (ds : List Char) : Nat := ds.foldl (fun n d => n * base + digitValue d) 0

/-- The greatest magnitude that can be written. -/
def maxMagnitude : Nat := UInt64.size / 2 - 1

/-- Splits off a minus sign. -/
def splitSign : List Char → Bool × List Char
  | '-' :: r => (true, r)
  | s => (false, s)

/-- Splits off the mark of a hexadecimal number, and gives the base. -/
def splitBase : List Char → Nat × List Char
  | '0' :: 'x' :: r => (16, r)
  | '0' :: 'X' :: r => (16, r)
  | s => (10, s)

/-- A signed number in base ten, or in base sixteen after its mark. -/
def number : Reader Int := fun s =>
  let (negative, unsigned) := splitSign s
  let (base, digits) := splitBase unsigned
  let ds := digits.takeWhile (isDigitIn base)
  let rest := digits.dropWhile (isDigitIn base)
  if ds.isEmpty then .error ⟨s, .expectedNumber⟩
  else if digitsValue base ds ≤ maxMagnitude then
    .ok (if negative then -(digitsValue base ds : Int) else digitsValue base ds, rest)
  else .error ⟨rest, .numberTooLarge⟩

theorem consumes_number : Consumes number := by
  intro s a r h
  have h₁ : (splitSign s).2.length ≤ s.length := by unfold splitSign; grind
  have h₂ : (splitBase (splitSign s).2).2.length ≤ (splitSign s).2.length := by unfold splitBase; grind
  have h₃ := congrArg List.length
    (List.takeWhile_append_dropWhile (l := (splitBase (splitSign s).2).2)
      (p := isDigitIn (splitBase (splitSign s).2).1))
  simp only [List.length_append] at h₃
  simp only [number] at h
  split at h
  · simp at h
  · rename_i hne
    have := List.length_pos_iff.2 fun h₀ => hne (List.isEmpty_iff.2 h₀)
    split at h
    · cases h; omega
    · simp at h

end Accelerator.Source
