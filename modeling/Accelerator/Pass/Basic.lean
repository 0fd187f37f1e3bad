import Accelerator.Error
import Accelerator.ObjectFile.Library
import Accelerator.Pass.Cloning
import Accelerator.Pass.Retargeting
import Accelerator.Pass.Survey
import Accelerator.Stream.Summaries

/-!
# The pass

A pass has its options and, once something was decided, summaries.  It can be run on a program, and its summaries
can be written to a stream or an object file and read back, so that a later run goes on where an earlier one ended.
-/

namespace Accelerator

/-- A pass over a program.  It has no summaries until it is run or reads some. -/
structure Pass where
  options : Options := {}
  summaries : Option Summaries := none
deriving DecidableEq

/-- What a run did: the kernels that were removed, the clones that were made, and the number of calls sent
elsewhere. -/
structure Report where
  removed : List Node
  clones : List Node
  redirected : Nat
deriving Repr, DecidableEq

namespace Workspace

/-- Surveys the program if more functions are to be found, makes the clones, and sends the calls of accelerator
code to accelerator code. -/
def run (options : Options) (w : Workspace) : Workspace × Report :=
  let (w, found) := if options.parallel then w.survey options.verbose else (w, {})
  let (w, clones) := w.cloneSweep options found.rejected
  let (w, redirected) := w.retarget
  (w, ⟨found.removed, clones, redirected⟩)

end Workspace

namespace Pass

/-- Whether the pass is to be run at all. -/
def isRequested (pass : Pass) : Bool := pass.options.offload

/-- The summaries, empty ones if there are none yet. -/
def summariesOrEmpty (pass : Pass) : Summaries := pass.summaries.getD ∅

/-- The workspace for a program. -/
def workspace (pass : Pass) (p : Program) (j : Journal) : Workspace := ⟨p, pass.summariesOrEmpty, j⟩

/-- Takes the summaries over from a workspace. -/
def keep (pass : Pass) (w : Workspace) : Pass := { pass with summaries := some w.summaries }

/-- Runs the pass on a program. -/
def execute (pass : Pass) (p : Program) (j : Journal) : (Pass × Program × Journal) × Report :=
  let (w, report) := (pass.workspace p j).run pass.options
  ((pass.keep w, w.program, w.journal), report)

/-- The summaries as text; empty if there are none. -/
def dump (pass : Pass) (p : Program) : String :=
  match pass.summaries with
  | none => ""
  | some s => s.render p

/-! ### Streams and object files -/

/-- The stream with the summaries, if there are any. -/
def stream? (pass : Pass) (p : Program) (roster : Roster) : Option (List UInt8) :=
  pass.summaries.map fun s => Stream.write p s roster

/-- The object file with the summaries, if there are any. -/
def object? (pass : Pass) (lib : ObjectFile.Library) (p : Program) (roster : Roster) :
    Except Error (Option (List UInt8)) :=
  match pass.stream? p roster with
  | none => .ok none
  | some stream => ((lib.wrap stream).map some).mapError .objectWrite

/-- Reads streams one after the other; `count` records were read before. -/
def readAll (roster : Roster) : List (List UInt8) → Nat → Program × Summaries →
    (Program × Summaries) × Except Error Nat
  | [], count, state => (state, .ok count)
  | bytes :: rest, count, state =>
    match Stream.read roster state bytes with
    | (state, .error fault) => (state, .error (.stream fault))
    | (state, .ok n) => readAll roster rest (count + n) state

/-- Reads streams into the summaries; gives the number of records. -/
def readStreams (pass : Pass) (p : Program) (roster : Roster) (streams : List (List UInt8)) :
    (Pass × Program) × Except Error Nat :=
  let ((p, s), result) := readAll roster streams 0 (p, pass.summariesOrEmpty)
  (({ pass with summaries := some s }, p), result)

/-- Reads a stream into the summaries; gives the number of records. -/
def readStream (pass : Pass) (p : Program) (roster : Roster) (bytes : List UInt8) :
    (Pass × Program) × Except Error Nat :=
  pass.readStreams p roster [bytes]

/-- Reads the streams in object files into the summaries.  If one of the files cannot be read, none of them is. -/
def readObjects (pass : Pass) (lib : ObjectFile.Library) (p : Program) (roster : Roster)
    (files : List (List UInt8)) : (Pass × Program) × Except Error Nat :=
  match lib.unwrapAll files with
  | .error message => ((pass, p), .error (.object message))
  | .ok streams => pass.readStreams p roster streams

end Pass

end Accelerator
