/-!
# Bit fields

Several small values in one word of 64 bits: the first value takes the least significant bits, the next one the bits
above them.  A word is filled field by field, and it is read field by field.
-/

namespace Accelerator.Stream

/-- A word, and how many of its low bits were filled or read. -/
structure BitPack where
  word : UInt64 := 0
  position : Nat := 0
deriving Repr, DecidableEq

namespace BitPack

/-- The word whose `width` low bits are set. -/
def mask (width : Nat) : UInt64 := 1 <<< width.toUInt64 - 1

/-- Fills the next `width` bits with the low bits of a value. -/
def put (b : BitPack) (value : UInt64) (width : Nat) : BitPack :=
  ⟨b.word ||| (value &&& mask width) <<< b.position.toUInt64, b.position + width⟩

/-- The value of the next `width` bits. -/
def next (b : BitPack) (width : Nat) : UInt64 := b.word >>> b.position.toUInt64 &&& mask width

/-- The values of the next fields of the given widths. -/
def fields (b : BitPack) : List Nat → List UInt64
  | [] => []
  | width :: widths => b.next width :: fields { b with position := b.position + width } widths

end BitPack

/-- The word whose fields hold the given values, each with its width; of a value that is too large for its width the
low bits are kept. -/
def packFields (fields : List (Nat × Nat)) : Nat :=
  (fields.foldl (fun b field => b.put field.1.toUInt64 field.2) ({} : BitPack)).word.toNat

/-- The values of the fields of the given widths. -/
def unpackFields (word : Nat) (widths : List Nat) : List Nat :=
  (({ word := word.toUInt64 } : BitPack).fields widths).map (·.toNat)

end Accelerator.Stream
