import Accelerator.Program.Basic

/-!
# What keeps a function from running on the accelerator

An obstacle is a reason why a function cannot be offloaded.  `Program.obstacle?` finds the first one: it looks at
the declaration, then at the calls one by one, then at the name, then at the instructions one by one.  A function
without an obstacle is eligible.
-/

namespace Accelerator

/-- Why a function cannot run on the accelerator. -/
inductive Obstacle
  | virtualFunction
  | mainFunction
  | addressTaken
  | indirectCalls
  | constructorOrDestructor
  | throwingCall
  | callOfIndirectCaller
  | internalName
  | functionAddress
  | globalAddress
  | returnSlot
deriving Repr, DecidableEq

namespace Obstacle

/-- Every obstacle. -/
def all : List Obstacle :=
  [virtualFunction, mainFunction, addressTaken, indirectCalls, constructorOrDestructor, throwingCall,
    callOfIndirectCaller, internalName, functionAddress, globalAddress, returnSlot]

/-- The wording of an obstacle. -/
def description : Obstacle → String
  | virtualFunction => "virtual function"
  | mainFunction => "main function"
  | addressTaken => "indirect function"
  | indirectCalls => "has indirect calls"
  | constructorOrDestructor => "static object constructor or destructor"
  | throwingCall => "calls to functions that throw exceptions"
  | callOfIndirectCaller => "calls to functions with indirect calls"
  | internalName => "C++ frontend internal function"
  | functionAddress => "takes a function's address"
  | globalAddress => "refers to an unsupported global variable"
  | returnSlot => "calls with return slot optimization"

end Obstacle

/-- Whether the result of a call is built in a slot of the caller. -/
def Action.usesReturnSlot {κ : Type} : Action κ → Bool
  | .call _ flags | .callIndirect _ flags => flags.returnSlot
  | .debug | .other _ => false

namespace Program

/-- An obstacle in the declaration of a function. -/
def Function.obstacle? (f : Function) : Option Obstacle :=
  if f.traits.isVirtual then some .virtualFunction
  else if f.name = "main" then some .mainFunction
  else if f.flags.addressTaken then some .addressTaken
  else if 0 < f.indirectCalls then some .indirectCalls
  else if f.traits.isConstructor || f.traits.isDestructor then some .constructorOrDestructor
  else none

/-- An obstacle in a call; a kernel may call functions that throw. -/
def edgeObstacle? (p : Program) (kernel : Bool) (e : Edge) : Option Obstacle :=
  if !kernel && e.throws then some .throwingCall
  else if p.hasIndirectCalls e.callee then some .callOfIndirectCaller
  else none

/-- An obstacle in the name of a function: names that end with a space belong to a front end. -/
def nameObstacle? (title : String) : Option Obstacle :=
  if title.toList.getLast? = some ' ' then some .internalName else none

/-- An obstacle in an operand. -/
def operandObstacle? : Operand Symbol → Option Obstacle
  | .address (.function _) => some .functionAddress
  | .address (.global _) => some .globalAddress
  | _ => none

/-- An obstacle in an instruction; debug instructions have none. -/
def instObstacle? (p : Program) (i : Inst) : Option Obstacle :=
  if i.action = .debug then none
  else if i.action.usesReturnSlot then some .returnSlot
  else (p.operandsOf i).findSome? operandObstacle?

/-- The first obstacle that keeps the function at a node from running on the accelerator. -/
def obstacle? (p : Program) (n : Node) : Option Obstacle :=
  (p.function n).obstacle?
    |>.or ((p.edgesOf n).findSome? (p.edgeObstacle? (p.hasMarker n .kernel)))
    |>.or (nameObstacle? (p.name n))
    |>.or (((p.blocksOf n).flatMap p.instsOf).findSome? p.instObstacle?)

end Program

end Accelerator
