import Accelerator.Source.Cause
import Accelerator.Stream.Cause

/-!
# Errors

What can be wrong with an input, a program text, a summary stream or an object file, and why no object file can be
written.
-/

namespace Accelerator

/-- What is wrong with an input or keeps an object file from being written. -/
inductive Error
  | text (fault : Source.Fault)
  | stream (fault : Stream.Fault)
  | object (message : String)
  | objectWrite (message : String)
deriving Repr, DecidableEq

namespace Error

/-- The wording of an error. -/
def message : Error → String
  | text fault => "Parse error at line " ++ toString fault.line ++ ": " ++ fault.cause.message
  | stream fault => fault.message
  | object message => "Object file error: " ++ message
  | objectWrite message => "Object file write error: " ++ message

/-- Whether work cannot go on without the input: a stream that does not fit the program. -/
def isFatal : Error → Bool
  | stream fault => fault.isFatal
  | text _ | object _ | objectWrite _ => false

end Error

end Accelerator
