import Accelerator.Pass.Obstacle
import Accelerator.Pass.Workspace
import Accelerator.Program.Graph

/-!
# The survey of candidates

Looks at every definition that is not yet bound to an accelerator side.  A function without an obstacle is marked
for both sides.  One with an obstacle loses its mark for the device and stays on the host; if it was a kernel,
which has no host side, it is removed from the program once all functions were looked at.
-/

namespace Accelerator

/-- What a survey found: the kernels that were removed and the functions that have to stay on the host. -/
structure Survey where
  removed : List Node := []
  rejected : List Node := []
deriving Repr, DecidableEq

namespace Workspace

/-- The notice about a function that cannot be offloaded. -/
def obstacleNotice (title : String) (o : Obstacle) : String :=
  "Unable to prepare '" ++ title ++ "' for HSA offloading (" ++ o.description ++ ")."

/-- Rejects a function because of an obstacle. -/
def reject (verbose : Bool) (w : Workspace) (n : Node) (o : Obstacle) : Workspace :=
  let title := w.program.name n
  let journal := w.journal.countRejected
  { w with
    program := w.program.removeMarker n .declareTarget
    journal := if verbose then journal.emit .note title (obstacleNotice title o) else journal }

/-- Looks at one definition. -/
def surveyNode (verbose : Bool) : Workspace × Survey → Node → Workspace × Survey
  | (w, found), n =>
    let w := { w with summaries := w.summaries.touch n }
    if (w.summaries.of n).bound.isSome then (w, found)
    else
      let w := { w with journal := w.journal.countConsidered }
      match w.program.obstacle? n with
      | none => ({ w with program := w.program.addMarker n .universal }, found)
      | some o =>
        let w := w.reject verbose n o
        if w.program.hasMarker n .kernel then (w, { found with removed := found.removed ++ [n] })
        else (w, { found with rejected := found.rejected ++ [n] })

/-- Removes a function for good. -/
def discard (w : Workspace) (n : Node) : Workspace where
  program := w.program.remove n
  summaries := w.summaries.forget n
  journal := w.journal.countRemoved

/-- Looks at every definition, then removes the kernels that cannot be offloaded. -/
def survey (verbose : Bool) (w : Workspace) : Workspace × Survey :=
  let (w, found) := w.program.definitions.foldl (surveyNode verbose) (w, {})
  (found.removed.foldl discard w, found)

end Workspace

end Accelerator
