/-!
# Faults in an object file

Why an object file is refused, and the wording of each cause.
-/

namespace Accelerator.ObjectFile

/-- Why an object file is refused. -/
inductive Cause
  | noMagic
  | unknownMagic
  | shortHeader
  | unsupportedHeader
  | entrySize
  | firstSection
  | sectionTable
  | noNameTable
  | badNameTable
  | nameTableSize
  | symbolTable
  | indexTable
  | sectionIndex
  | stringTable
  | stringTableSize
  | sectionData
deriving Repr, DecidableEq

/-- The wording of a cause. -/
def Cause.message : Cause → String
  | noMagic => "Could not read file magic"
  | unknownMagic => "Unknown file magic"
  | shortHeader => "Invalid ELF header size or alignment"
  | unsupportedHeader => "Unsupported ELF header"
  | entrySize => "Invalid ELF section header entry size"
  | firstSection => "Invalid ELF section header offset or size"
  | sectionTable => "Invalid ELF section header offset/size/alignment"
  | noNameTable => "Missing ELF e_shstrndx"
  | badNameTable => "Invalid ELF e_shstrndx"
  | nameTableSize => "Invalid ELF shstrtab size"
  | symbolTable => "Invalid ELF symbol table data"
  | indexTable => "Invalid ELF symtab_shndx data"
  | sectionIndex => "Invalid ELF section index"
  | stringTable => "Invalid ELF string section type"
  | stringTableSize => "Invalid ELF string section offset or size"
  | sectionData => "Invalid ELF section size or offset"

end Accelerator.ObjectFile
