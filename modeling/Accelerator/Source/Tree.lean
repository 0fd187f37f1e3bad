import Accelerator.Instruction
import Accelerator.Marker

/-!
# Source trees

A program as its text spells it out, before any name is looked up: globals and functions in order, a function with
its arguments, markers, flag words and, if it is a definition, its labelled blocks of instructions.  The type `ρ`
stands for a reference to a function or a global by name.
-/

namespace Accelerator.Source

/-- One instruction, with the name that its result gets. -/
structure Inst (ρ : Type) where
  result : Option String
  action : Action ρ
  operands : List (Operand ρ)
deriving Repr, DecidableEq

/-- A labelled block. -/
structure Block (ρ : Type) where
  label : String
  insts : List (Inst ρ)
deriving Repr, DecidableEq

/-- The flag words that follow the argument list of a function. -/
structure FlagWords where
  isLocal : Bool := false
  isVirtual : Bool := false
  isConstructor : Bool := false
  isDestructor : Bool := false
  isArtificial : Bool := false
  noClone : Bool := false
  addressTaken : Bool := false
deriving Repr, DecidableEq

/-- A function; one without a body is a declaration. -/
structure Function (ρ : Type) where
  name : String
  args : List String
  markers : List Marker
  words : FlagWords
  body : Option (List (Block ρ))
deriving Repr, DecidableEq

/-- A top-level entry of a program text. -/
inductive Item (ρ : Type)
  | global (name : String)
  | function (f : Function ρ)
deriving Repr, DecidableEq

variable {ρ ρ' : Type}

/-- Adds one flag word, if there is such a word. -/
def FlagWords.add? (w : FlagWords) : String → Option FlagWords
  | "local" => some { w with isLocal := true }
  | "virtual" => some { w with isVirtual := true }
  | "ctor" => some { w with isConstructor := true }
  | "dtor" => some { w with isDestructor := true }
  | "artificial" => some { w with isArtificial := true }
  | "noclone" => some { w with noClone := true }
  | "address_taken" => some { w with addressTaken := true }
  | _ => none

/-- The name that an entry defines. -/
def Item.name : Item ρ → String
  | .global name => name
  | .function f => f.name

/-- The function of an entry that is one. -/
def Item.function? : Item ρ → Option (Function ρ)
  | .global _ => none
  | .function f => some f

/-- The name of an entry that is a global. -/
def Item.global? : Item ρ → Option String
  | .global name => some name
  | .function _ => none

/-- The blocks of a function; a declaration has none. -/
def Function.blocks (f : Function ρ) : List (Block ρ) := f.body.getD []

/-- The instructions of a function, block after block. -/
def Function.insts (f : Function ρ) : List (Inst ρ) := f.blocks.flatMap (·.insts)

/-! ### Changing the references -/

/-- Changes every reference of an instruction. -/
def Inst.map (f : ρ → ρ') (i : Inst ρ) : Inst ρ' :=
  ⟨i.result, i.action.map f, i.operands.map (·.map f)⟩

/-- Changes every reference of a block. -/
def Block.map (f : ρ → ρ') (b : Block ρ) : Block ρ' := ⟨b.label, b.insts.map (·.map f)⟩

/-- Changes every reference of a function. -/
def Function.map (f : ρ → ρ') (g : Function ρ) : Function ρ' :=
  ⟨g.name, g.args, g.markers, g.words, g.body.map (·.map (·.map f))⟩

/-- Changes every reference of an entry. -/
def Item.map (f : ρ → ρ') : Item ρ → Item ρ'
  | .global name => .global name
  | .function g => .function (g.map f)

/-! ### The references of a program -/

/-- The functions of a program, in order. -/
def functions (items : List (Item ρ)) : List (Function ρ) := items.filterMap Item.function?

/-- The globals of a program, in order. -/
def globals (items : List (Item ρ)) : List String := items.filterMap Item.global?

/-- The instructions of a program, in order. -/
def insts (items : List (Item ρ)) : List (Inst ρ) := (functions items).flatMap (·.insts)

/-- What the program calls by name, in order. -/
def called (items : List (Item ρ)) : List ρ := (insts items).filterMap (·.action.callee?)

/-- What the program takes the address of, in order. -/
def addressed (items : List (Item ρ)) : List ρ :=
  (insts items).flatMap (·.operands.filterMap Operand.addressed?)

end Accelerator.Source
