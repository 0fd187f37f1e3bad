/-!
# Operands and actions of instructions

An instruction acts on a list of operands.  The type of an operand is open in what it takes the address of, and the
type of an action in what it calls: a name while a program is only text, an entry of a table once the names are
resolved.
-/

namespace Accelerator

/-- What a call says about itself: whether it may throw, and whether its result is built in a slot of the caller.
-/
structure CallFlags where
  throws : Bool := false
  returnSlot : Bool := false
deriving Repr, DecidableEq

/-- An operand of an instruction; `ρ` is what an address can be taken of. -/
inductive Operand (ρ : Type)
  | value (name : String)
  | immediate (n : Int)
  | block (label : String)
  | address (symbol : ρ)
  | localAddress (name : String)
deriving Repr, DecidableEq

/-- What an instruction does; `κ` is what it can call. -/
inductive Action (κ : Type)
  | debug
  | call (callee : κ) (flags : CallFlags)
  | callIndirect (target : String) (flags : CallFlags)
  | other (opcode : String)
deriving Repr, DecidableEq

/-- Renames what addresses are taken of. -/
def Operand.map {ρ ρ' : Type} (f : ρ → ρ') : Operand ρ → Operand ρ'
  | .value name => .value name
  | .immediate n => .immediate n
  | .block label => .block label
  | .address symbol => .address (f symbol)
  | .localAddress name => .localAddress name

/-- Renames what is called. -/
def Action.map {κ κ' : Type} (f : κ → κ') : Action κ → Action κ'
  | .debug => .debug
  | .call callee flags => .call (f callee) flags
  | .callIndirect target flags => .callIndirect target flags
  | .other opcode => .other opcode

/-- The target of a direct call. -/
def Action.callee? {κ : Type} : Action κ → Option κ
  | .call callee _ => some callee
  | _ => none

/-- What an operand takes the address of. -/
def Operand.addressed? {ρ : Type} : Operand ρ → Option ρ
  | .address symbol => some symbol
  | _ => none

end Accelerator
