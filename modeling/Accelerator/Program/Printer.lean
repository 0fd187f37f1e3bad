import Accelerator.Program.Basic
import Accelerator.Text.Lines

/-!
# The printed form of a program

A line for each global and, for each function that was not removed, its head line, markers, flags, edges, calls
through values and body.
-/

namespace Accelerator.Program

/-- The flag words of a function. -/
def Function.flagWords (f : Function) : List String :=
  Text.wordsWhere
    [(f.traits.isPublic, "public"),
     (f.flags.externallyVisible, "externally_visible"),
     (f.flags.isLocal, "local"),
     (f.flags.forceOutput, "force_output"),
     (f.flags.addressTaken, "address_taken"),
     (f.flags.definition && !f.flags.versionable, "noclone"),
     (f.traits.isVirtual, "virtual"),
     (f.traits.isConstructor, "ctor"),
     (f.traits.isDestructor, "dtor"),
     (f.traits.isArtificial, "artificial")]

/-- An operand. -/
def renderOperand (p : Program) : Operand Symbol → String
  | .value name => "%" ++ name
  | .immediate n => toString n
  | .block label => "^" ++ label
  | .address (.function n) => "&" ++ p.name n
  | .address (.global g) => "&" ++ p.globals.getD g ""
  | .localAddress name => "&%" ++ name

/-- The operands of an instruction, separated by commas. -/
def renderOperands (p : Program) (i : Inst) : String := ", ".intercalate ((p.operandsOf i).map p.renderOperand)

/-- The operands of a call in parentheses, and its flag words. -/
def renderCallTail (p : Program) (i : Inst) (flags : CallFlags) : String :=
  "(" ++ p.renderOperands i ++ ")" ++ (if flags.throws then " throws" else "") ++
    (if flags.returnSlot then " rso" else "")

/-- The operands of a plain instruction, after a space if there are any. -/
def renderPlainTail (p : Program) (i : Inst) : String :=
  if (p.operandsOf i).isEmpty then "" else " " ++ p.renderOperands i

/-- An instruction without its result. -/
def renderAction (p : Program) (i : Inst) : String :=
  match i.action with
  | .debug => "dbg" ++ p.renderPlainTail i
  | .other opcode => opcode ++ p.renderPlainTail i
  | .call callee flags => "call @" ++ p.name callee ++ p.renderCallTail i flags
  | .callIndirect target flags => "call_indirect %" ++ target ++ p.renderCallTail i flags

/-- The line of an instruction. -/
def renderInst (p : Program) (i : Inst) : String :=
  match i.result with
  | none => "    " ++ p.renderAction i
  | some r => "    %" ++ r ++ " = " ++ p.renderAction i

/-- The lines of a block. -/
def blockLines (p : Program) (b : Block) : List String :=
  ("  Block " ++ b.label) :: (p.instsOf b).map p.renderInst

/-- The line of a call that the function called `caller` makes. -/
def renderEdge (p : Program) (caller : String) (e : Edge) : String :=
  "  Edge " ++ caller ++ " -> " ++ p.name e.callee ++ (if e.throws then " throws" else "")

/-- The lines of the function at a node. -/
def functionLines (p : Program) (n : Node) : List String :=
  let f := p.function n
  [(if f.flags.definition then "Function " else "Declaration ") ++ f.name]
    ++ (if f.markers.isEmpty then [] else ["  Attributes: " ++ ", ".intercalate (f.markers.map (·.name))])
    ++ ["  Flags: " ++ " ".intercalate f.flagWords]
    ++ (p.edgesOf n).map (p.renderEdge f.name)
    ++ (if p.hasIndirectCalls n then ["  Indirect calls: " ++ toString f.indirectCalls] else [])
    ++ (p.blocksOf n).flatMap p.blockLines

/-- The lines of a program. -/
def lines (p : Program) : List String :=
  p.globals.toList.map ("Global " ++ ·) ++ p.live.flatMap p.functionLines

/-- The printed form of a program: each line ends with a newline. -/
def render (p : Program) : String := String.join (p.lines.map (· ++ "\n"))

end Accelerator.Program
