/-!
# The journal of a run

Notices about single functions, in the order in which they came up, and a tally of what was done.
-/

namespace Accelerator

/-- How serious a notice is. -/
inductive Severity
  | warning
  | note
deriving Repr, DecidableEq

/-- A message about a function. -/
structure Notice where
  severity : Severity
  function : String
  message : String
deriving Repr, DecidableEq

/-- How often each thing was done. -/
structure Tally where
  considered : Nat := 0
  rejected : Nat := 0
  removed : Nat := 0
  clones : Nat := 0
  redirected : Nat := 0
deriving Repr, DecidableEq

/-- The notices and the tally of a run. -/
structure Journal where
  notices : List Notice := []
  tally : Tally := {}
deriving Repr, DecidableEq

/-- The word for a severity. -/
def Severity.name : Severity → String
  | warning => "warning"
  | note => "note"

/-- The line of a notice. -/
def Notice.render (n : Notice) : String := n.function ++ ": " ++ n.severity.name ++ ": " ++ n.message

/-- The tally as text. -/
def Tally.render (t : Tally) : String :=
  "Offload Pass Statistics:\n" ++
    "  Functions considered: " ++ toString t.considered ++ "\n" ++
    "  Functions rejected: " ++ toString t.rejected ++ "\n" ++
    "  Kernels removed: " ++ toString t.removed ++ "\n" ++
    "  Clones created: " ++ toString t.clones ++ "\n" ++
    "  Edges redirected: " ++ toString t.redirected ++ "\n"

namespace Journal

/-- Adds a notice. -/
def emit (j : Journal) (severity : Severity) (function message : String) : Journal :=
  { j with notices := j.notices ++ [⟨severity, function, message⟩] }

/-- Counts a function that was considered. -/
def countConsidered (j : Journal) : Journal := { j with tally.considered := j.tally.considered + 1 }

/-- Counts a function that was rejected. -/
def countRejected (j : Journal) : Journal := { j with tally.rejected := j.tally.rejected + 1 }

/-- Counts a kernel that was removed. -/
def countRemoved (j : Journal) : Journal := { j with tally.removed := j.tally.removed + 1 }

/-- Counts a clone. -/
def countClone (j : Journal) : Journal := { j with tally.clones := j.tally.clones + 1 }

/-- Counts a call that was sent elsewhere. -/
def countRedirected (j : Journal) : Journal := { j with tally.redirected := j.tally.redirected + 1 }

end Journal

end Accelerator
