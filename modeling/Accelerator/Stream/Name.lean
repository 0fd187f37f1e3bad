import Accelerator.Stream.Number

/-!
# Names in a stream

A name is written as the number of its bytes and then its bytes in UTF-8.
-/

namespace Accelerator.Stream

/-- The bytes of a text in UTF-8. -/
def utf8 (text : String) : List UInt8 := text.toUTF8.data.toList

/-- The text with the given bytes in UTF-8, if they are well formed. -/
def ofUtf8? (bytes : List UInt8) : Option String := String.fromUTF8? ⟨bytes.toArray⟩

/-- The bytes of a name, after their number. -/
def encodeName (name : String) : List UInt8 := encodeNumber (utf8 name).length ++ utf8 name

/-- The first `size` bytes as a text. -/
def text (size : Nat) : Reader String := fun s =>
  if s.length < size then .error ⟨s, .nameBeyondEnd⟩
  else
    match ofUtf8? (s.take size) with
    | none => .error ⟨s, .invalidName⟩
    | some t => .ok (t, s.drop size)

/-- A name. -/
def name : Reader String := do
  let size ← number
  text size

end Accelerator.Stream
