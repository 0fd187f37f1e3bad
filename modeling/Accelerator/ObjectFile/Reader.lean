import Accelerator.ObjectFile.Cause
import Accelerator.ObjectFile.Format
import Accelerator.ObjectFile.Library
import Accelerator.ObjectFile.Writer

/-!
# Reading an object file

Finds a section in an ELF file by its name.  The headers have to be sound; of the sections only the one
that is looked for and the symbol tables have to lie inside the file.
-/

namespace Accelerator.ObjectFile

/-- The bytes at a place of a file, if they lie inside it; no bytes are anywhere. -/
def bytesAt? (file : List UInt8) (offset size : Nat) : Option (List UInt8) :=
  if size = 0 ∨ offset + size ≤ file.length then some ((file.drop offset).take size) else none

/-! ### Headers -/

/-- The class and the data encoding, from the first sixteen bytes. -/
def format (file : List UInt8) : Except Cause Format :=
  if file.length < 16 then .error .noMagic
  else
    match file with
    | 0x7f :: 0x45 :: 0x4c :: 0x46 :: fileClass :: encoding :: version :: _ =>
      if fileClass = 1 ∨ fileClass = 2 then
        let f : Format := { wide := fileClass = 2, bigEndian := encoding = 2 }
        if file.length < f.headerSize then .error .shortHeader
        else if (encoding = 1 ∨ encoding = 2) ∧ version = 1 then .ok f
        else .error .unsupportedHeader
      else .error .unknownMagic
    | _ => .error .unknownMagic

/-- The file header. -/
def header (f : Format) (file : List UInt8) : Header := .ofFields (f.fields f.headerSizes (file.drop 16))

/-- A table of section headers. -/
def sectionsAt (f : Format) (file : List UInt8) (offset count : Nat) (cause : Cause) :
    Except Cause (List Section) :=
  if offset + count * f.sectionSize ≤ file.length then
    .ok ((List.range count).map fun i =>
      .ofFields (f.fields f.sectionSizes (file.drop (offset + i * f.sectionSize))))
  else .error cause

/-- The first section header, which holds what is too large for the file header; there is none without a table. -/
def firstSection? (f : Format) (file : List UInt8) (h : Header) : Except Cause (Option Section) := do
  if h.tableOffset = 0 then return none
  if h.entrySize ≠ f.sectionSize then throw .entrySize
  let sections ← sectionsAt f file h.tableOffset 1 .firstSection
  return sections.head?

/-- The number of sections. -/
def sectionCount (f : Format) (file : List UInt8) (h : Header) : Except Cause Nat := do
  if h.count ≠ 0 then return h.count
  let first ← firstSection? f file h
  return (first.map (·.size)).getD 0

/-- The section headers. -/
def sections (f : Format) (file : List UInt8) (h : Header) : Except Cause (List Section) := do
  if h.tableOffset = 0 then return []
  let count ← sectionCount f file h
  if count = 0 then return []
  if h.entrySize ≠ f.sectionSize then throw .entrySize
  sectionsAt f file h.tableOffset count .sectionTable

/-! ### Section names -/

/-- The number in the file header that says to look at the first section header instead. -/
def escapedIndex : Nat := 0xffff

/-- The place of the section that holds the names. -/
def nameTableIndex (f : Format) (file : List UInt8) (h : Header) : Except Cause Nat := do
  let index ←
    if h.nameTable = escapedIndex then
      let first ← firstSection? f file h
      pure ((first.map (·.link)).getD 0)
    else pure h.nameTable
  if index = 0 then throw .noNameTable
  return index

/-- The part of the file that holds the names: where it begins and where it ends. -/
def nameTable (f : Format) (file : List UInt8) (h : Header) (all : List Section) :
    Except Cause (Option (Nat × Nat)) := do
  let index ← nameTableIndex f file h
  match all[index]? with
  | none => throw .badNameTable
  | some s =>
    if s.type = noBitsType then return none
    if UInt64.size ≤ s.offset + s.size then throw .nameTableSize
    return some (s.offset, s.offset + s.size)

/-- The name of a section, which ends before a zero byte inside the table. -/
def sectionName? (file : List UInt8) (table : Option (Nat × Nat)) (s : Section) : Option (List UInt8) := do
  let (start, stop) ← table
  let first := start + s.name
  if first ≤ stop then
    let bytes ← bytesAt? file first (stop - first)
    if 0 ∈ bytes then some (bytes.takeWhile (· != 0)) else none
  else none

/-! ### Sections -/

/-- The bytes of a section. -/
def sectionData (file : List UInt8) (s : Section) : Except Cause (List UInt8) :=
  if s.type = noBitsType then .ok []
  else
    match bytesAt? file s.offset s.size with
    | none => .error .sectionData
    | some bytes => .ok bytes

/-- Whether a section is a table whose entries have the given size, and lies inside the file. -/
def isTable (file : List UInt8) (s : Section) (entry : Nat) : Bool :=
  s.size % entry = 0 && (bytesAt? file s.offset s.size).isSome

/-- Checks the string table at a place; the place zero stands for none. -/
def checkStrings (all : List Section) (place : Nat) : Except Cause Unit :=
  if place = 0 then .ok ()
  else
    match all[place]? with
    | none => .error .sectionIndex
    | some s =>
      if s.type ≠ stringTableType then .error .stringTable
      else if UInt64.size ≤ s.offset + s.size then .error .stringTableSize
      else .ok ()

/-- Checks the first symbol table of the given type, the string table that it is linked to, and the tables of
section indices that are linked to it. -/
def checkSymbols (f : Format) (file : List UInt8) (all : List Section) (type : Nat) : Except Cause Unit :=
  match all.findIdx? (·.type = type), all.find? (·.type = type) with
  | some place, some s => do
    if !isTable file s f.symbolSize then throw .symbolTable
    checkStrings all s.link
    let indices := all.filter fun t => t.type = indexTableType ∧ t.link = place
    if indices.any fun t => !isTable file t indexSize then throw .indexTable
  | _, _ => .ok ()

/-- The bytes of the first section with the given name; a file need not have one. -/
def findSection? (name file : List UInt8) : Except Cause (Option (List UInt8)) := do
  let f ← format file
  let h := header f file
  let all ← sections f file h
  if all.isEmpty then return none
  let table ← nameTable f file h all
  checkSymbols f file all symbolTableType
  checkSymbols f file all dynamicSymbolTableType
  match all.find? fun s => sectionName? file table s = some name with
  | none => return none
  | some s =>
    let bytes ← sectionData file s
    return some bytes

/-- The library for ELF files. -/
def elf : Library where
  write name bytes := .ok (fileWith name bytes)
  find? name file := (findSection? name file).mapError Cause.message

end Accelerator.ObjectFile
