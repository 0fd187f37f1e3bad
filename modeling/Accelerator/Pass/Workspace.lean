import Accelerator.Journal
import Accelerator.Program.Basic
import Accelerator.Summary.Basic

/-!
# What the pass works on

The options of the pass, and the state that its sweeps go through: the program, the summaries and the journal.
-/

namespace Accelerator

/-- What was asked of the pass: whether to offload at all, whether to look for more functions to offload, and how
much to say about it. -/
structure Options where
  offload : Bool := false
  parallel : Bool := false
  verbose : Bool := false
  warn : Bool := true
deriving Repr, DecidableEq

/-- The program, what is decided about its functions, and what was noted on the way. -/
structure Workspace where
  program : Program
  summaries : Summaries
  journal : Journal
deriving DecidableEq

end Accelerator
