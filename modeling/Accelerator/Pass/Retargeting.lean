import Accelerator.Pass.Workspace
import Accelerator.Program.Graph

/-!
# Calls from the accelerator side

A call that an accelerator function makes to a host function with an accelerator side is sent to that side.
-/

namespace Accelerator

/-- Where a call of a function by accelerator code should go, if elsewhere. -/
def Summaries.twinOf? (s : Summaries) (callee : Node) : Option Node :=
  let d := s.of callee
  if d.isParticipant && !d.accelerator then d.bound else none

namespace Workspace

/-- Whether a function is accelerator code. -/
def isAccelerator (w : Workspace) (n : Node) : Bool :=
  (w.summaries.of n).isParticipant && (w.summaries.of n).accelerator

/-- Sends one call of accelerator code to the accelerator side of its callee, and counts it. -/
def retargetEdge : Workspace × Nat → Nat → Workspace × Nat
  | (w, count), e =>
    match w.summaries.twinOf? (w.program.edge e).callee with
    | none => (w, count)
    | some twin =>
      ({ w with program := w.program.redirect e twin, journal := w.journal.countRedirected }, count + 1)

/-- Goes through the calls of one function, if it is accelerator code. -/
def retargetNode : Workspace × Nat → Node → Workspace × Nat
  | (w, count), n =>
    if w.isAccelerator n then (w.program.function n).callees.foldl retargetEdge (w, count) else (w, count)

/-- Goes through the calls of all definitions, and gives the number of calls that were sent elsewhere. -/
def retarget (w : Workspace) : Workspace × Nat := w.program.definitions.foldl retargetNode (w, 0)

end Workspace

end Accelerator
