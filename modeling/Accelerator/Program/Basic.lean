import Accelerator.Instruction
import Accelerator.Marker
import Std.Data.ExtTreeMap

/-!
# Programs as tables

A program is held in tables: functions, globals, blocks, instructions, operands and call edges.  A function refers
to a span of blocks, a block to a span of instructions and an instruction to a span of operands, so that a clone
can share the body of the function it was made from.  A node of the call graph is the place of a function in its
table; a removed function keeps its place.

Beside the tables stand the names of the functions that can be looked up, and for each name the number from which
the next clone of that function is numbered.
-/

namespace Accelerator

/-- A node of the call graph: the place of a function in the table of functions. -/
abbrev Node := Nat

/-- The places `start`, …, `stop - 1` of a table. -/
structure Span where
  start : Nat
  stop : Nat
deriving Repr, DecidableEq, Inhabited

/-- The entries of a table that lie in a span. -/
def Span.of {α : Type} (s : Span) (table : Array α) : List α := (table.extract s.start s.stop).toList

/-- What an address can be taken of: a function or a global, by its place. -/
inductive Symbol
  | function (node : Node)
  | global (place : Nat)
deriving Repr, DecidableEq

/-- What the declaration of a function says. -/
structure Traits where
  isVirtual : Bool := false
  isConstructor : Bool := false
  isDestructor : Bool := false
  isArtificial : Bool := false
  isPublic : Bool := false
deriving Repr, DecidableEq, Inhabited

/-- What the call graph knows of a function.  A versionable function may be cloned; an externally visible one can
be called from outside, and a local one is called from this program only. -/
structure Flags where
  definition : Bool := false
  versionable : Bool := false
  isLocal : Bool := false
  externallyVisible : Bool := false
  forceOutput : Bool := false
  addressTaken : Bool := false
deriving Repr, DecidableEq, Inhabited

namespace Program

/-- A function: its blocks are a span of the table of blocks, its calls are places in the table of edges. -/
structure Function where
  name : String
  args : List String
  markers : List Marker
  traits : Traits
  flags : Flags
  body : Span
  callees : List Nat
  indirectCalls : Nat
  removed : Bool
deriving Repr, DecidableEq, Inhabited

/-- A labelled block: its instructions are a span of the table of instructions. -/
structure Block where
  label : String
  insts : Span
deriving Repr, DecidableEq

/-- An instruction: its operands are a span of the table of operands. -/
structure Inst where
  result : Option String
  action : Action Node
  operands : Span
deriving Repr, DecidableEq

/-- A direct call from one function to another. -/
structure Edge where
  caller : Node
  callee : Node
  throws : Bool
  removed : Bool
deriving Repr, DecidableEq, Inhabited

end Program

/-- A program: its tables, the names that can be looked up, and the counters for the names of clones. -/
structure Program where
  functions : Array Program.Function
  globals : Array String
  blocks : Array Program.Block
  insts : Array Program.Inst
  operands : Array (Operand Symbol)
  edges : Array Program.Edge
  names : Std.ExtTreeMap String Node
  cloneCounts : Std.ExtTreeMap String Nat
deriving DecidableEq

namespace Program

/-- The function at a node. -/
def function (p : Program) (n : Node) : Function := p.functions.getD n default

/-- The edge at a place. -/
def edge (p : Program) (e : Nat) : Edge := p.edges.getD e default

/-- The name of the function at a node. -/
def name (p : Program) (n : Node) : String := (p.function n).name

/-- The nodes of the functions that were not removed, in order. -/
def live (p : Program) : List Node := (List.range p.functions.size).filter fun n => !(p.function n).removed

/-- The nodes of the definitions that were not removed, in order. -/
def definitions (p : Program) : List Node := p.live.filter fun n => (p.function n).flags.definition

/-- The blocks of the function at a node. -/
def blocksOf (p : Program) (n : Node) : List Block := (p.function n).body.of p.blocks

/-- The instructions of a block. -/
def instsOf (p : Program) (b : Block) : List Inst := b.insts.of p.insts

/-- The operands of an instruction. -/
def operandsOf (p : Program) (i : Inst) : List (Operand Symbol) := i.operands.of p.operands

/-- The edges of the calls that the function at a node makes. -/
def edgesOf (p : Program) (n : Node) : List Edge := (p.function n).callees.map p.edge

/-- The names of the functions that the function at a node calls, call by call. -/
def calleeNames (p : Program) (n : Node) : List String := (p.edgesOf n).map fun e => p.name e.callee

/-- Whether the function at a node makes calls through values. -/
def hasIndirectCalls (p : Program) (n : Node) : Bool := 0 < (p.function n).indirectCalls

/-- Whether the function at a node carries a marker. -/
def hasMarker (p : Program) (n : Node) (m : Marker) : Bool := (p.function n).markers.contains m

end Program

end Accelerator
