import Accelerator.Pass.Workspace
import Accelerator.Program.Graph

/-!
# Accelerator clones

What is done with a function follows from its summary and its markers: its treatment.  A function that is to run on
both sides is cloned; the clone is the accelerator side, and the function is bound to it.
-/

namespace Accelerator

/-- What is to be done with a function. -/
inductive Treatment
  /-- Nothing: it has its accelerator side, or is one. -/
  | resolved
  /-- It stands for code from elsewhere and has to be public. -/
  | placeholder
  /-- It is a kernel, which runs on the accelerator only. -/
  | kernel
  /-- It runs on both sides, because a marker or else its summary says so. -/
  | function (marked : Bool)
  /-- It may run on both sides. -/
  | universal
  /-- It is code for a device by a foreign convention. -/
  | implicit
  /-- It runs on the host. -/
  | host
deriving Repr, DecidableEq

namespace Program

/-- Whether a function is code for a device by a foreign convention. -/
def isDeviceCallable (p : Program) (n : Node) : Bool :=
  p.hasMarker n .declareTarget && !p.hasMarker n .deviceRoutine

/-- What is to be done with a function. -/
def treatment (p : Program) (n : Node) (s : Summary) : Treatment :=
  if s.isResolved then .resolved
  else if p.hasMarker n .placeholder then .placeholder
  else if p.hasMarker n .kernel then .kernel
  else if p.hasMarker n .callable then .function true
  else if s.isParticipant then .function false
  else if p.hasMarker n .universal then .universal
  else if p.isDeviceCallable n && !(p.function n).traits.isArtificial then .implicit
  else .host

end Program

/-- The word between the name of a function and the number of its clone. -/
def cloneSuffix : String := "hsa"

namespace Workspace

/-- The warning about a function that cannot be cloned. -/
def noCloneNotice (title : String) : String :=
  "could not emit HSAIL for function " ++ title ++ ": function cannot be cloned"

/-- Gives a function an accelerator side: a clone that is as visible as the function itself, and kept unless the
function is local.  A function that may not be cloned stays as it is. -/
def addTwin (options : Options) (w : Workspace) (n : Node) (kind : Kind) (isPublic : Bool) :
    Workspace × Option Node :=
  let f := w.program.function n
  if f.flags.versionable then
    let (twin, p) := w.program.clone n cloneSuffix
    let p := (p.setPublic twin isPublic).setExternallyVisible twin f.flags.externallyVisible
    let p := if f.flags.isLocal then p else p.setForceOutput twin true
    (⟨p, w.summaries.link twin n kind, w.journal.countClone⟩, some twin)
  else if options.warn then
    ({ w with journal := w.journal.emit .warning f.name (noCloneNotice f.name) }, none)
  else
    (w, none)

/-- Treats one function; the result names the clone, if one was made. -/
def treat (options : Options) (w : Workspace) (n : Node) : Workspace × Option Node :=
  let w := { w with summaries := w.summaries.touch n }
  let isPublic := (w.program.function n).traits.isPublic
  match w.program.treatment n (w.summaries.of n) with
  | .resolved | .host => (w, none)
  | .placeholder => ({ w with program := w.program.setPublic n true }, none)
  | .kernel => ({ w with summaries := w.summaries.markAccelerator n .kernel }, none)
  | .function true =>
    let summaries := w.summaries.update n ({ · with kind := .function })
    addTwin options { w with summaries } n .function isPublic
  | .function false => addTwin options w n (w.summaries.of n).kind isPublic
  | .universal =>
    addTwin options { w with program := w.program.addMarker n .declareTarget } n .function
      (options.parallel || isPublic)
  | .implicit => addTwin options w n .kernel isPublic

/-- Treats every function except those that stay on the host, and gives the clones that were made. -/
def cloneSweep (options : Options) (hostOnly : List Node) (w : Workspace) : Workspace × List Node :=
  let step := fun (w, clones) n =>
    if hostOnly.contains n then (w, clones)
    else
      let (w, twin?) := treat options w n
      (w, clones ++ twin?.toList)
  w.program.live.foldl step (w, [])

end Workspace

end Accelerator
