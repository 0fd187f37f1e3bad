/-!
# Markers

A marker is a word attached to a function that tells the pass what the author of the program asked for: a kernel, a
function for the accelerator, a function for both sides, a placeholder, or one of the two foreign conventions for
code that may run on a device.
-/

namespace Accelerator

/-- What the author of a program may ask for a function. -/
inductive Marker
  | kernel
  | callable
  | universal
  | placeholder
  | declareTarget
  | deviceRoutine
deriving Repr, DecidableEq

namespace Marker

/-- Every marker, in the order in which they are listed. -/
def all : List Marker := [kernel, callable, universal, placeholder, declareTarget, deviceRoutine]

/-- The word for a marker in a program text. -/
def name : Marker → String
  | kernel => "hsa_kernel"
  | callable => "hsa_function"
  | universal => "hsa_universal"
  | placeholder => "hsa_placeholder"
  | declareTarget => "omp declare target"
  | deviceRoutine => "oacc function"

/-- The marker with the given word. -/
def ofName? (word : String) : Option Marker := all.find? (·.name == word)

end Marker

end Accelerator
