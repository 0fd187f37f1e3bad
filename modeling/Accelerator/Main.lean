import Accelerator.CommandLine.Session
import Accelerator.ObjectFile.Reader

/-!
# The program

Runs the command line in the world it was started in.
-/

namespace Accelerator.CommandLine

/-- Reads a stream to its end. -/
partial def readToEnd (stream : IO.FS.Stream) (sofar : ByteArray) : IO ByteArray := do
  let chunk ← stream.read 65536
  if chunk.isEmpty then return sofar else readToEnd stream (sofar ++ chunk)

/-- The number of an error of the system, which may be given as its negative. -/
def systemCode (code : UInt32) : Nat := min code.toNat (UInt32.size - code.toNat)

/-- The file error that an error of the system stands for. -/
def FileError.ofSystem : IO.Error → FileError
  | .noFileOrDirectory _ _ _ => .notFound
  | .permissionDenied _ _ _ => .denied
  | e@(.inappropriateType _ code _) =>
    match systemCode code with
    | 20 => .notFolder
    | 21 => .isFolder
    | _ => .other (toString e)
  | e => .other (toString e)

/-- Runs a step and gives its error as a value. -/
def attempt {α : Type} (step : IO α) : IO (Except FileError α) := do
  try
    let a ← step
    return .ok a
  catch e => return .error (.ofSystem e)

/-- The world in which the program was started. -/
def systemWorld : World IO where
  standardInput := attempt do
    let bytes ← readToEnd (← IO.getStdin) .empty
    return bytes.data.toList
  readFile path := attempt do
    let bytes ← IO.FS.readBinFile path
    return bytes.data.toList
  writeFile path bytes := attempt (IO.FS.writeBinFile path ⟨bytes.toArray⟩)

end Accelerator.CommandLine

open Accelerator.CommandLine in
/-- Runs the command line and prints what it gives. -/
def main (args : List String) : IO UInt32 := do
  let outcome ← run Accelerator.ObjectFile.elf systemWorld args
  IO.print outcome.output
  IO.eprint outcome.notices
  return outcome.exitCode.toUInt32
