import Accelerator.Program.Basic

/-!
# Summaries

What the pass has decided about a function: which kind of accelerator code it is, whether it is the accelerator
side, and, for a host function, the accelerator function it is bound to.  `Summaries` holds the decisions for the
functions that were looked at; all others have the empty summary.
-/

namespace Accelerator

/-- The kind of accelerator code that a function is. -/
inductive Kind
  | none
  | kernel
  | function
deriving Repr, DecidableEq, Inhabited

namespace Kind

/-- The word for a kind. -/
def name : Kind → String
  | none => "none"
  | kernel => "kernel"
  | function => "function"

/-- The number that stands for a kind in a stream. -/
def code : Kind → Nat
  | none => 0
  | kernel => 1
  | function => 2

/-- The kind with the given number. -/
def ofCode? : Nat → Option Kind
  | 0 => some none
  | 1 => some kernel
  | 2 => some function
  | _ => Option.none

end Kind

/-- What the pass has decided about a function. -/
structure Summary where
  kind : Kind := .none
  accelerator : Bool := false
  bound : Option Node := none
deriving Repr, DecidableEq, Inhabited

namespace Summary

/-- Whether the function takes part in offloading. -/
def isParticipant (s : Summary) : Bool := s.kind != .none

/-- Whether nothing is left to decide: the function has an accelerator side or is one. -/
def isResolved (s : Summary) : Bool := s.bound.isSome || (s.isParticipant && s.accelerator)

end Summary

/-- The summaries of the functions that were looked at. -/
abbrev Summaries := Std.ExtTreeMap Node Summary

namespace Summaries

/-- The summary of a function; the empty one if it was not looked at. -/
def of (s : Summaries) (n : Node) : Summary := s.getD n {}

/-- Changes the summary of a function, which is then one of those looked at. -/
def update (s : Summaries) (n : Node) (f : Summary → Summary) : Summaries := s.insert n (f (s.of n))

/-- Looks at a function. -/
def touch (s : Summaries) (n : Node) : Summaries := s.update n id

/-- Says that a function is accelerator code of its own. -/
def markAccelerator (s : Summaries) (n : Node) (kind : Kind) : Summaries :=
  s.update n fun e => { e with kind, accelerator := true }

/-- Binds a host function to its accelerator side. -/
def link (s : Summaries) (accelerator host : Node) (kind : Kind) : Summaries :=
  (s.insert accelerator { kind, accelerator := true, bound := none }).insert host
    { kind, accelerator := false, bound := some accelerator }

/-- Forgets a function, and with it the bindings to it. -/
def forget (s : Summaries) (n : Node) : Summaries :=
  (s.erase n).map fun _ e => if e.bound = some n then { e with bound := none } else e

/-- The line for a function that takes part. -/
def line (p : Program) (n : Node) (s : Summary) : String :=
  "Summary " ++ p.name n ++ ": kind=" ++ s.kind.name ++
    " role=" ++ (if s.accelerator then "accelerator" else "host") ++
    (match s.bound with
     | none => ""
     | some b => " bound=" ++ p.name b) ++ "\n"

/-- The summaries of the functions that take part and were not removed, a line for each. -/
def render (s : Summaries) (p : Program) : String :=
  String.join ((p.live.filter fun n => (s.of n).isParticipant).map fun n => line p n (s.of n))

end Summaries

end Accelerator
