/-!
# Libraries for object files

A summary stream travels in an object file, in a section of its own.  What an object file is, and what is wrong with a
file that is none, is up to a library: it makes files with a section, and it finds the section of a name in a file.
-/

namespace Accelerator.ObjectFile

/-- The name of the section that holds a summary stream. -/
def summarySection : List UInt8 := ".gnu.lto_.ipa_hsa".toUTF8.data.toList

/-- What a library for object files offers.  Where it fails, it says why. -/
structure Library where
  /-- The object file with one section, which has the given name and bytes. -/
  write : List UInt8 → List UInt8 → Except String (List UInt8)
  /-- The bytes of the section with the given name in a file; an object file need not have one. -/
  find? : List UInt8 → List UInt8 → Except String (Option (List UInt8))

namespace Library

/-- The object file that holds a summary stream. -/
def wrap (lib : Library) (stream : List UInt8) : Except String (List UInt8) := lib.write summarySection stream

/-- The summary stream in an object file, if it holds one. -/
def unwrap? (lib : Library) (file : List UInt8) : Except String (Option (List UInt8)) := lib.find? summarySection file

/-- The summary streams in object files, in order. -/
def unwrapAll (lib : Library) (files : List (List UInt8)) : Except String (List (List UInt8)) := do
  let streams ← files.mapM lib.unwrap?
  return streams.reduceOption

end Library

end Accelerator.ObjectFile
