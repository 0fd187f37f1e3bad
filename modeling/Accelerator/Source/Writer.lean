import Accelerator.Source.Token
import Accelerator.Source.Tree
import Accelerator.Text.Lines

/-!
# Source trees as text

Writes a source tree as a program text: symbols and markers between quotes, and every label and every instruction
on a line of its own.  `IsWritable` says which trees have such a text: the names can be written, no name is defined
twice, and what is referred to is defined.
-/

namespace Accelerator.Source

/-! ### What can be written -/

/-- Whether a word is a plain name. -/
def isName (word : String) : Bool :=
  match word.toList with
  | [] => false
  | c :: r => startsName c && r.all continuesName

/-- Whether a title can stand between quotes. -/
def isTitle (title : String) : Bool := !title.isEmpty && title.toList.all inQuotes

/-- Whether an operand can be written. -/
def isWritableOperand : Operand String → Bool
  | .value name | .localAddress name | .block name => isName name
  | .immediate n => n.natAbs ≤ maxMagnitude
  | .address title => isTitle title

/-- The operation words with a meaning of their own. -/
def ownWords : List String := ["dbg", "call", "call_indirect"]

/-- Whether an action can be written. -/
def isWritableAction : Action String → Bool
  | .debug => true
  | .call callee _ => isTitle callee
  | .callIndirect target _ => isName target
  | .other opcode => isName opcode && !ownWords.contains opcode

/-- Whether an instruction can be written. -/
def Inst.isWritable (i : Inst String) : Bool :=
  i.result.all isName && isWritableAction i.action && i.operands.all isWritableOperand

/-- Whether a block can be written. -/
def Block.isWritable (b : Block String) : Bool := isName b.label && b.insts.all Inst.isWritable

/-- Whether a function can be written: no marker is repeated, and no label is used twice. -/
def Function.isWritable (f : Function String) : Bool :=
  isTitle f.name && f.args.all isName && decide f.markers.Nodup && f.blocks.all Block.isWritable &&
    decide (f.blocks.map (·.label)).Nodup

/-- Whether an entry can be written. -/
def Item.isWritable : Item String → Bool
  | .global title => isTitle title
  | .function f => f.isWritable

/-- Whether a program has a text. -/
structure IsWritable (items : List (Item String)) : Prop where
  writable : ∀ i ∈ items, i.isWritable
  distinct : (items.map Item.name).Nodup
  callsDefined : ∀ title ∈ called items, title ∈ (functions items).map (·.name)
  addressesDefined : ∀ title ∈ addressed items, title ∈ items.map Item.name

/-! ### The text -/

/-- A title between quotes. -/
def quoted (title : String) : String := "\"" ++ title ++ "\""

/-- The text of an operand. -/
def operandText : Operand String → String
  | .value name => "%" ++ name
  | .immediate n => toString n
  | .block label => "^" ++ label
  | .address title => "&" ++ quoted title
  | .localAddress name => "&%" ++ name

/-- Texts with commas between them. -/
def listed : List String → String
  | [] => ""
  | [text] => text
  | text :: texts => text ++ ", " ++ listed texts

/-- The operands and the flag words of a call. -/
def callTail (ops : List (Operand String)) (flags : CallFlags) : String :=
  "(" ++ listed (ops.map operandText) ++ ")" ++ (if flags.throws then " throws" else "") ++
    (if flags.returnSlot then " rso" else "")

/-- The operands of a plain instruction. -/
def plainTail (ops : List (Operand String)) : String := " " ++ listed (ops.map operandText)

/-- The text of an action with its operands. -/
def actionText (ops : List (Operand String)) : Action String → String
  | .debug => "dbg" ++ plainTail ops
  | .call callee flags => "call @" ++ quoted callee ++ callTail ops flags
  | .callIndirect target flags => "call_indirect %" ++ target ++ callTail ops flags
  | .other opcode => opcode ++ plainTail ops

/-- The line of an instruction. -/
def Inst.text (i : Inst String) : String :=
  (i.result.map fun r => "%" ++ r ++ " = ").getD "" ++ actionText i.operands i.action ++ "\n"

/-- The lines of a block. -/
def Block.text (b : Block String) : String := b.label ++ ":\n" ++ String.join (b.insts.map Inst.text)

/-- The flag words that are given. -/
def FlagWords.list (w : FlagWords) : List String :=
  Text.wordsWhere
    [(w.isLocal, "local"), (w.isVirtual, "virtual"), (w.isConstructor, "ctor"), (w.isDestructor, "dtor"),
      (w.isArtificial, "artificial"), (w.noClone, "noclone"), (w.addressTaken, "address_taken")]

/-- The text of a body, or the mark of a declaration. -/
def bodyText : Option (List (Block String)) → String
  | none => "!\n"
  | some blocks => "\x7b\n" ++ String.join (blocks.map Block.text) ++ "\x7d\n"

/-- The lines of a function. -/
def Function.text (f : Function String) : String :=
  quoted f.name ++ "(" ++ listed (f.args.map ("%" ++ ·)) ++ ") [" ++
    listed (f.markers.map fun m => quoted m.name) ++ "] " ++
    String.join (f.words.list.map (· ++ " ")) ++ bodyText f.body

/-- The lines of an entry. -/
def Item.text : Item String → String
  | .global title => "global " ++ quoted title ++ "\n"
  | .function f => f.text

/-- The text of a program. -/
def write (items : List (Item String)) : String := String.join (items.map Item.text)

end Accelerator.Source
