import Accelerator.ObjectFile.Format

/-!
# Writing an object file

The file with a section is a relocatable ELF file of 64 bits, the least significant byte first.  Beside the section it
has a symbol table without symbols and the two string tables.
-/

namespace Accelerator.ObjectFile

/-- The names of the sections, each between two zero bytes; `name` is that of the section the file is made for. -/
def sectionNames (name : List UInt8) : List UInt8 :=
  "\x00.shstrtab\x00.strtab\x00.symtab\x00".toUTF8.data.toList ++ name ++ [0]

/-- The least multiple of eight that is not below `n`. -/
def alignUp (n : Nat) : Nat := (n + 7) / 8 * 8

/-- The zero bytes that bring the bytes before them from length `n` to a multiple of eight. -/
def padding (n : Nat) : List UInt8 := List.replicate (alignUp n - n) 0

/-- The bytes of numbers of the given sizes. -/
def encodeFields (fields : List (Nat × Nat)) : List UInt8 := fields.flatMap fun (size, n) => encodeLittle size n

/-- The file header of a file for the machine 62 with five sections, the last of which holds the names. -/
def encodeHeader (tableOffset : Nat) : List UInt8 :=
  [0x7f, 0x45, 0x4c, 0x46, 2, 1, 1, 0, 0, 0, 0, 0, 0, 0, 0, 0] ++
    encodeFields
      [(2, 1), (2, 62), (4, 1), (8, 0), (8, 0), (8, tableOffset), (4, 0), (2, 64), (2, 0), (2, 0), (2, 64), (2, 5),
        (2, 4)]

/-- The bytes of a section header. -/
def Section.encode (s : Section) : List UInt8 :=
  encodeFields
    [(4, s.name), (4, s.type), (8, s.flags), (8, s.address), (8, s.offset), (8, s.size), (4, s.link), (4, s.info),
      (8, s.alignment), (8, s.entrySize)]

/-- Where the symbol table is if the section has `n` bytes. -/
def symbolOffset (n : Nat) : Nat := alignUp (64 + n)

/-- The section headers of the file for a section of `n` bytes. -/
def sectionsFor (name : List UInt8) (n : Nat) : List Section :=
  let symbols := symbolOffset n
  [{},
   { name := 27, type := 1, offset := 64, size := n, alignment := 1 },
   { name := 19, type := symbolTableType, offset := symbols, size := 24, link := 3, info := 1, alignment := 8
     entrySize := 24 },
   { name := 11, type := stringTableType, offset := symbols + 24, size := 1, alignment := 1 },
   { name := 1, type := stringTableType, offset := symbols + 25, size := (sectionNames name).length, alignment := 1 }]

/-- Where the section names end if the section has `n` bytes. -/
def namesEnd (name : List UInt8) (n : Nat) : Nat := symbolOffset n + 25 + (sectionNames name).length

/-- The object file with a section of the given name and bytes. -/
def fileWith (name bytes : List UInt8) : List UInt8 :=
  let n := bytes.length
  encodeHeader (alignUp (namesEnd name n)) ++ bytes ++ padding (64 + n) ++ List.replicate 24 0 ++ [0] ++
    sectionNames name ++ padding (namesEnd name n) ++ (sectionsFor name n).flatMap Section.encode

end Accelerator.ObjectFile
