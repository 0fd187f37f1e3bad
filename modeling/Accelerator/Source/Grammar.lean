import Accelerator.Source.Token
import Accelerator.Source.Tree

/-!
# The grammar of a program text

Reads a program text into a source tree.  A text is a sequence of globals and functions; a function has an argument
list, an optional list of markers, flag words, and either an exclamation mark (a declaration) or a body of labelled
blocks in braces.  Every name may be defined once.

Each repetition is a `loop` over a round that takes at least one character when it goes on.
-/

namespace Accelerator.Source

open Scanner

/-- A reference to a function or a global: its name, and the text from the place where the name was expected. -/
structure Mention where
  name : String
  rest : List Char
deriving Repr, DecidableEq

/-- A symbol, with the place where it was expected. -/
def mention : Reader Mention := do
  let rest ← remaining
  let name ← symbol
  return ⟨name, rest⟩

private theorem consumes_mention : Consumes mention :=
  keeps_remaining.bind_consumes fun _ => consumes_symbol.bind fun _ => keeps_pure _

/-! ### Operands -/

/-- What the address is taken of, after its ampersand. -/
def address : Reader (Operand Mention) := do
  if (← peek) == some '%' then
    return .localAddress (← valueName)
  else
    return .address (← mention)

/-- One operand, on the current line. -/
def operand : Reader (Operand Mention) := do
  inlineBlanks
  let next ← peek
  match next with
  | some '%' => return .value (← valueName)
  | some '^' =>
    advance
    return .block (← name)
  | some '&' =>
    advance
    address
  | some c =>
    if c == '-' || c.isDigit then
      return .immediate (← number)
    else
      fail (.expectedOperand next)
  | none => fail (.expectedOperand next)

private theorem consumes_address : Consumes address := by
  refine keeps_peek.bind_consumes fun _ => ?_
  split
  · exact consumes_valueName.bind fun _ => keeps_pure _
  · exact consumes_mention.bind fun _ => keeps_pure _

private theorem consumes_operand : Consumes operand := by
  refine keeps_inlineBlanks.bind_consumes fun _ => keeps_peek.bind_consumes fun _ => ?_
  split
  · exact consumes_valueName.bind fun _ => keeps_pure _
  · exact keeps_advance.bind_consumes fun _ => consumes_name.bind fun _ => keeps_pure _
  · exact keeps_advance.bind_consumes fun _ => consumes_address
  · split
    · exact consumes_number.bind fun _ => keeps_pure _
    · exact consumes_fail _
  · exact consumes_fail _

/-! ### Instructions -/

/-- Whether the current instruction ends here: at the end of the text or of the line, at a comment or at a brace.
-/
def endsInst : Reader Bool := do
  inlineBlanks
  match ← peek with
  | none | some '\n' | some ';' | some '\x7d' => return true
  | _ => return false

private theorem keeps_endsInst : Keeps endsInst := by
  refine keeps_inlineBlanks.bind fun _ => keeps_peek.bind fun _ => ?_
  split <;> exact keeps_pure _

/-- One more operand of a plain instruction; a comma follows unless the instruction ends. -/
def operandRound (ops : List (Operand Mention)) : Reader (Option (List (Operand Mention))) := do
  if ← endsInst then return none
  let op ← operand
  inlineBlanks
  let next ← peek
  if next == some ',' then
    advance
    return some (ops ++ [op])
  else
    if ← endsInst then return some (ops ++ [op])
    fail (.operandSeparator next)

/-- One more operand of a call. -/
def callArgumentRound (ops : List (Operand Mention)) : Reader (Option (List (Operand Mention))) := do
  if ← accept ')' then return none
  blanks
  let op ← operand
  separator ')' .callArgumentSeparator
  return some (ops ++ [op])

/-- One more flag word of a call. -/
def callFlagRound (flags : CallFlags) : Reader (Option CallFlags) := do
  if ← endsInst then return none
  let word ← name
  match word with
  | "throws" => return some { flags with throws := true }
  | "rso" => return some { flags with returnSlot := true }
  | _ => fail (.unknownCallFlag word)

theorem progresses_operandRound (ops : List (Operand Mention)) : Progresses (operandRound ops) := by
  refine keeps_endsInst.bind_progresses fun _ => ?_
  split
  · exact progresses_none
  · refine Consumes.progresses (consumes_operand.bind fun _ => keeps_inlineBlanks.bind fun _ =>
      keeps_peek.bind fun _ => ?_)
    split
    · exact keeps_advance.bind fun _ => keeps_pure _
    · refine keeps_endsInst.bind fun _ => ?_
      split
      · exact keeps_pure _
      · exact (consumes_fail _).keeps

theorem progresses_callArgumentRound (ops : List (Operand Mention)) : Progresses (callArgumentRound ops) := by
  refine (keeps_accept _).bind_progresses fun _ => ?_
  split
  · exact progresses_none
  · exact Consumes.progresses (keeps_blanks.bind_consumes fun _ => consumes_operand.bind fun _ =>
      (keeps_separator _ _).bind fun _ => keeps_pure _)

theorem progresses_callFlagRound (flags : CallFlags) : Progresses (callFlagRound flags) := by
  refine keeps_endsInst.bind_progresses fun _ => ?_
  split
  · exact progresses_none
  · refine Consumes.progresses (consumes_name.bind fun _ => ?_)
    split
    · exact keeps_pure _
    · exact keeps_pure _
    · exact (consumes_fail _).keeps

/-- The operands of a plain instruction. -/
def operands : Reader (List (Operand Mention)) := loop operandRound progresses_operandRound []

/-- The operands of a call, in parentheses. -/
def callArguments : Reader (List (Operand Mention)) := do
  expect '('
  loop callArgumentRound progresses_callArgumentRound []

/-- The flag words of a call. -/
def callFlags : Reader CallFlags := loop callFlagRound progresses_callFlagRound {}

/-- What an instruction does and with which operands, after its operation word. -/
def action (opcode : String) : Reader (Action Mention × List (Operand Mention)) := do
  match opcode with
  | "call" =>
    expect '@'
    let callee ← mention
    let ops ← callArguments
    let flags ← callFlags
    return (.call callee flags, ops)
  | "call_indirect" =>
    let target ← valueName
    let ops ← callArguments
    let flags ← callFlags
    return (.callIndirect target flags, ops)
  | "dbg" => return (.debug, ← operands)
  | _ => return (.other opcode, ← operands)

/-- The name that the result gets, with the equals sign after it. -/
def result : Reader (Option String) := do
  blanks
  if (← peek) == some '%' then
    let r ← valueName
    expect '='
    return some r
  else
    return none

/-- One instruction. -/
def inst : Reader (Inst Mention) := do
  let r ← result
  let opcode ← name
  let (act, ops) ← action opcode
  return ⟨r, act, ops⟩

private theorem keeps_callArguments : Keeps callArguments :=
  (consumes_expect _).keeps.bind fun _ => keeps_loop _ _ _

private theorem keeps_action (opcode : String) : Keeps (action opcode) := by
  unfold action
  split
  · exact (consumes_expect _).keeps.bind fun _ => consumes_mention.keeps.bind fun _ =>
      keeps_callArguments.bind fun _ => (keeps_loop _ _ _).bind fun _ => keeps_pure _
  · exact consumes_valueName.keeps.bind fun _ => keeps_callArguments.bind fun _ =>
      (keeps_loop _ _ _).bind fun _ => keeps_pure _
  · exact (keeps_loop _ _ _).bind fun _ => keeps_pure _
  · exact (keeps_loop _ _ _).bind fun _ => keeps_pure _

private theorem keeps_result : Keeps result := by
  refine keeps_blanks.bind fun _ => keeps_peek.bind fun _ => ?_
  split
  · exact consumes_valueName.keeps.bind fun _ => (consumes_expect _).keeps.bind fun _ => keeps_pure _
  · exact keeps_pure _

private theorem consumes_inst : Consumes inst :=
  keeps_result.bind_consumes fun _ => consumes_name.bind fun _ => (keeps_action _).bind fun _ => keeps_pure _

/-! ### Blocks -/

/-- Whether a label comes next: a name and, on the same line, a colon. -/
def startsLabel (s : List Char) : Bool :=
  match name s with
  | .ok (_, r) => (dropInline r).head? == some ':'
  | .error _ => false

/-- One more instruction of a block, which ends at a brace, at a label or at the end of the text. -/
def instRound (is : List (Inst Mention)) : Reader (Option (List (Inst Mention))) := do
  blanks
  let s ← remaining
  if s.isEmpty || s.head? == some '\x7d' || startsLabel s then return none
  let i ← inst
  return some (is ++ [i])

theorem progresses_instRound (is : List (Inst Mention)) : Progresses (instRound is) := by
  refine keeps_blanks.bind_progresses fun _ => keeps_remaining.bind_progresses fun _ => ?_
  split
  · exact progresses_none
  · exact Consumes.progresses (consumes_inst.bind fun _ => keeps_pure _)

/-- A labelled block. -/
def block : Reader (Block Mention) := do
  let label ← name
  expect ':'
  let insts ← loop instRound progresses_instRound []
  return ⟨label, insts⟩

private theorem consumes_block : Consumes block :=
  consumes_name.bind fun _ => (consumes_expect _).keeps.bind fun _ => (keeps_loop _ _ _).bind fun _ => keeps_pure _

/-- One more block of the body of `owner`; a label may be used once in a body. -/
def blockRound (owner : String) (bs : List (Block Mention)) : Reader (Option (List (Block Mention))) := do
  if ← accept '\x7d' then return none
  let s ← remaining
  refuse s.isEmpty (.unterminatedBody owner)
  let b ← block
  refuse (bs.any (·.label == b.label)) (.duplicateLabel b.label)
  return some (bs ++ [b])

theorem progresses_blockRound (owner : String) (bs : List (Block Mention)) : Progresses (blockRound owner bs) := by
  refine (keeps_accept _).bind_progresses fun _ => ?_
  split
  · exact progresses_none
  · exact Consumes.progresses (keeps_remaining.bind_consumes fun _ => (keeps_refuse _ _).bind_consumes fun _ =>
      consumes_block.bind fun _ => (keeps_refuse _ _).bind fun _ => keeps_pure _)

/-! ### Functions -/

/-- One more argument of a function. -/
def argumentRound (args : List String) : Reader (Option (List String)) := do
  if ← accept ')' then return none
  let arg ← valueName
  separator ')' .argumentSeparator
  return some (args ++ [arg])

/-- One more marker of a function; a marker that is given again is not repeated. -/
def markerRound (markers : List Marker) : Reader (Option (List Marker)) := do
  if ← accept ']' then return none
  let word ← symbol
  match Marker.ofName? word with
  | none => fail (.unknownMarker word)
  | some m =>
    separator ']' .markerSeparator
    return some (if m ∈ markers then markers else markers ++ [m])

/-- One more flag word of a function; the words end at an exclamation mark, a brace or the end of the text. -/
def flagRound (words : FlagWords) : Reader (Option FlagWords) := do
  blanks
  match ← peek with
  | none | some '!' | some '\x7b' => return none
  | _ =>
    let word ← name
    match words.add? word with
    | none => fail (.unknownFlag word)
    | some words => return some words

theorem progresses_argumentRound (args : List String) : Progresses (argumentRound args) := by
  refine (keeps_accept _).bind_progresses fun _ => ?_
  split
  · exact progresses_none
  · exact Consumes.progresses (consumes_valueName.bind fun _ => (keeps_separator _ _).bind fun _ => keeps_pure _)

theorem progresses_markerRound (markers : List Marker) : Progresses (markerRound markers) := by
  refine (keeps_accept _).bind_progresses fun _ => ?_
  split
  · exact progresses_none
  · refine Consumes.progresses (consumes_symbol.bind fun _ => ?_)
    split
    · exact (consumes_fail _).keeps
    · exact (keeps_separator _ _).bind fun _ => keeps_pure _

theorem progresses_flagRound (words : FlagWords) : Progresses (flagRound words) := by
  refine keeps_blanks.bind_progresses fun _ => keeps_peek.bind_progresses fun _ => ?_
  split
  · exact progresses_none
  · exact progresses_none
  · exact progresses_none
  · refine Consumes.progresses (consumes_name.bind fun _ => ?_)
    split
    · exact (consumes_fail _).keeps
    · exact keeps_pure _

/-- The arguments of a function, in parentheses. -/
def arguments : Reader (List String) := do
  expect '('
  loop argumentRound progresses_argumentRound []

/-- The markers of a function, in square brackets; there may be none. -/
def markers : Reader (List Marker) := do
  if ← accept '[' then
    loop markerRound progresses_markerRound []
  else
    return []

/-- The body of the function `owner`, or the mark of a declaration. -/
def body (owner : String) : Reader (Option (List (Block Mention))) := do
  if ← accept '!' then return none
  expect '\x7b'
  let bs ← loop (blockRound owner) (progresses_blockRound owner) []
  return some bs

/-- A function, after its name. -/
def function (title : String) : Reader (Function Mention) := do
  let args ← arguments
  let ms ← markers
  let words ← loop flagRound progresses_flagRound {}
  let bs ← body title
  return ⟨title, args, ms, words, bs⟩

private theorem keeps_markers : Keeps markers := by
  refine (keeps_accept _).bind fun open? => ?_
  cases open? with
  | true => exact keeps_loop _ _ _
  | false => exact keeps_pure _

private theorem keeps_body (owner : String) : Keeps (body owner) := by
  refine (keeps_accept _).bind fun _ => ?_
  split
  · exact keeps_pure _
  · exact (consumes_expect _).keeps.bind fun _ => (keeps_loop _ _ _).bind fun _ => keeps_pure _

private theorem keeps_function (title : String) : Keeps (function title) :=
  ((consumes_expect _).keeps.bind fun _ => keeps_loop _ _ _).bind fun _ => keeps_markers.bind fun _ =>
    (keeps_loop _ _ _).bind fun _ => (keeps_body _).bind fun _ => keeps_pure _

/-! ### Whole programs -/

/-- Whether a name is already defined. -/
def taken (items : List (Item Mention)) (title : String) : Bool := items.any (·.name == title)

/-- A global or a function.  The word `global` names a function if a parenthesis follows it. -/
def item (items : List (Item Mention)) : Reader (Item Mention) := do
  let title ← symbol
  blanks
  let next ← peek
  if title == "global" && next != some '(' then
    let title ← symbol
    refuse (taken items title) (.duplicateSymbol title)
    return .global title
  else
    refuse (taken items title) (.duplicateFunction title)
    let f ← function title
    return .function f

/-- One more entry of a program. -/
def itemRound (items : List (Item Mention)) : Reader (Option (List (Item Mention))) := do
  blanks
  let s ← remaining
  if s.isEmpty then return none
  let i ← item items
  return some (items ++ [i])

private theorem consumes_item (items : List (Item Mention)) : Consumes (item items) := by
  refine consumes_symbol.bind fun _ => keeps_blanks.bind fun _ => keeps_peek.bind fun _ => ?_
  split
  · exact consumes_symbol.keeps.bind fun _ => (keeps_refuse _ _).bind fun _ => keeps_pure _
  · exact (keeps_refuse _ _).bind fun _ => (keeps_function _).bind fun _ => keeps_pure _

theorem progresses_itemRound (items : List (Item Mention)) : Progresses (itemRound items) := by
  refine keeps_blanks.bind_progresses fun _ => keeps_remaining.bind_progresses fun _ => ?_
  split
  · exact progresses_none
  · exact Consumes.progresses ((consumes_item _).bind fun _ => keeps_pure _)

/-- A whole program text. -/
def program : Reader (List (Item Mention)) := loop itemRound progresses_itemRound []

end Accelerator.Source
