/-!
# The layout of an ELF file

The file header and the section headers are sequences of numbers of fixed sizes.  The sizes depend on the class of
the file, 64 or 32 bits, and the order of the bytes on its data encoding.
-/

namespace Accelerator.ObjectFile

/-! ### Numbers of fixed size -/

/-- The number with the given bytes, the least significant first. -/
def littleEndian : List UInt8 → Nat
  | [] => 0
  | b :: r => b.toNat + 256 * littleEndian r

/-- The low `size` bytes of a number, the least significant first. -/
def encodeLittle : Nat → Nat → List UInt8
  | 0, _ => []
  | size + 1, n => n.toUInt8 :: encodeLittle size (n / 256)

/-- The class and the data encoding of a file. -/
structure Format where
  wide : Bool
  bigEndian : Bool
deriving Repr, DecidableEq

namespace Format

/-- The number with the given bytes. -/
def value (f : Format) (bytes : List UInt8) : Nat := littleEndian (if f.bigEndian then bytes.reverse else bytes)

/-- The numbers of the given sizes that stand one after the other. -/
def fields (f : Format) : List Nat → List UInt8 → List Nat
  | [], _ => []
  | size :: sizes, bytes => f.value (bytes.take size) :: f.fields sizes (bytes.drop size)

/-- The size of an address, an offset or a size in the file. -/
def word (f : Format) : Nat := if f.wide then 8 else 4

/-- The sizes of the fields of the file header after its sixteen identifying bytes. -/
def headerSizes (f : Format) : List Nat := [2, 2, 4, f.word, f.word, f.word, 4, 2, 2, 2, 2, 2, 2]

/-- The size of the file header. -/
def headerSize (f : Format) : Nat := 16 + f.headerSizes.foldr (· + ·) 0

/-- The sizes of the fields of a section header. -/
def sectionSizes (f : Format) : List Nat := [4, 4, f.word, f.word, f.word, f.word, 4, 4, f.word, f.word]

/-- The size of a section header. -/
def sectionSize (f : Format) : Nat := f.sectionSizes.foldr (· + ·) 0

/-- The size of a symbol. -/
def symbolSize (f : Format) : Nat := if f.wide then 24 else 16

end Format

/-! ### Headers -/

/-- What is needed of a file header: where the section headers are, the size of each, their number, and the section
that holds their names. -/
structure Header where
  tableOffset : Nat
  entrySize : Nat
  count : Nat
  nameTable : Nat
deriving Repr, DecidableEq

/-- A section header. -/
structure Section where
  name : Nat := 0
  type : Nat := 0
  flags : Nat := 0
  address : Nat := 0
  offset : Nat := 0
  size : Nat := 0
  link : Nat := 0
  info : Nat := 0
  alignment : Nat := 0
  entrySize : Nat := 0
deriving Repr, DecidableEq, Inhabited

/-- A symbol table. -/
def symbolTableType : Nat := 2

/-- A string table. -/
def stringTableType : Nat := 3

/-- A section that takes no room in the file. -/
def noBitsType : Nat := 8

/-- A symbol table for dynamic linking. -/
def dynamicSymbolTableType : Nat := 11

/-- A table of section indices that are too large for their symbols. -/
def indexTableType : Nat := 18

/-- The size of a section index in such a table. -/
def indexSize : Nat := 4

/-- The file header from its fields. -/
def Header.ofFields (fields : List Nat) : Header :=
  { tableOffset := fields.getD 5 0, entrySize := fields.getD 10 0, count := fields.getD 11 0
    nameTable := fields.getD 12 0 }

/-- A section header from its fields. -/
def Section.ofFields (fields : List Nat) : Section :=
  let field i := fields.getD i 0
  { name := field 0, type := field 1, flags := field 2, address := field 3, offset := field 4, size := field 5
    link := field 6, info := field 7, alignment := field 8, entrySize := field 9 }

end Accelerator.ObjectFile
