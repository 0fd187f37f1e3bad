import Accelerator.Scanner

/-!
# Faults in a summary stream

Why a summary stream is refused, and the wording of each cause.  A stream whose records do not fit the program it
is read for is a fatal mistake; a stream that is only malformed can be ignored.
-/

namespace Accelerator.Stream

/-- Why a summary stream is refused. -/
inductive Cause
  | unexpectedEnd
  | numberTooLarge
  | nameBeyondEnd
  | invalidName
  | unknownKind (code : Nat)
  | noTerminator
  | badIndex (index size : Nat)
  | notDefinition (index : Nat) (name : String)
deriving Repr, DecidableEq

/-- What is wrong with the bytes; empty where the bytes are sound and do not fit the program. -/
def Cause.reason : Cause → String
  | unexpectedEnd => "unexpected end of stream"
  | numberTooLarge => "variable-length integer overflows 64 bits"
  | nameBeyondEnd => "declaration reference runs past end of stream"
  | invalidName => "declaration reference is not valid UTF-8"
  | unknownKind code => "invalid function kind " ++ toString code
  | noTerminator => "missing stream terminator"
  | badIndex _ _ | notDefinition _ _ => ""

/-- Where and why a stream is refused: the number of bytes before the fault, and the cause. -/
structure Fault where
  offset : Nat
  cause : Cause
deriving Repr, DecidableEq

namespace Fault

/-- Whether the stream does not fit the program. -/
def isFatal (f : Fault) : Bool :=
  match f.cause with
  | .badIndex _ _ | .notDefinition _ _ => true
  | _ => false

/-- The wording of a fault. -/
def message (f : Fault) : String :=
  match f.cause with
  | .badIndex index size =>
    "Summary index " ++ toString index ++ " is outside the partition encoder (" ++ toString size ++ " nodes)"
  | .notDefinition index name =>
    "Summary index " ++ toString index ++ " refers to '" ++ name ++ "', which is not a definition"
  | cause => "Malformed summary stream at byte " ++ toString f.offset ++ ": " ++ cause.reason

end Fault

/-- The fault of a scan of `bytes` that halted. -/
def faultOf (bytes : List UInt8) (h : Halt UInt8 Cause) : Fault := ⟨bytes.length - h.rest.length, h.cause⟩

/-- Reads a value from a stream. -/
abbrev Reader := Scanner UInt8 Cause

/-- One byte. -/
def byte : Reader UInt8
  | [] => .error ⟨[], .unexpectedEnd⟩
  | b :: r => .ok (b, r)

end Accelerator.Stream
