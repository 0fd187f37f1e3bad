import Accelerator.ObjectFile.Reader
import Accelerator.Pass.Basic
import Accelerator.Program.Layout
import Mathlib

/-!
# Streams in object files

A stream that is put into an object file comes back from it, whatever its length, if the library for object files
writes ELF files of one layout and follows the tables of such files (`Library.WritesLayout`, `Library.FollowsTables`):
from the header to the section headers, from these to the names and from the name to the bytes.  Each of these places
depends on the length of the stream, and the tables of the layout lead to it (`tables_fileWith`).  So reading object
files is reading their streams in turn (`Pass.readStreams_eq_readInTurn`), and whatever the library is, a file that it
refuses stops it before anything is read.

The places in a file are numbers of 64 bits, so a file is less than 2⁶⁴ bytes long.
-/

namespace Accelerator

namespace ObjectFile

/-! ### Tables -/

/-- A file of 64 bits, the least significant byte first. -/
def wideLittle : Format := ⟨true, false⟩

/-- Where the program headers of a file are; it has none if this is zero. -/
def segmentOffset (file : List UInt8) : Nat := (wideLittle.fields wideLittle.headerSizes (file.drop 16)).getD 4 0

/-- A section of bytes, symbols or strings, in a file with the section headers `all`.  Its bytes lie inside the file,
and symbols are linked to strings. -/
structure Section.IsSound (file : List UInt8) (all : List Section) (s : Section) : Prop where
  type : s.type ≤ stringTableType
  inside : s.offset + s.size ≤ file.length
  symbols : s.type = symbolTableType → s.offset % 8 = 0 ∧ s.size % wideLittle.symbolSize = 0 ∧
    ∃ t, all[s.link]? = some t ∧ t.type = stringTableType

/-- The tables of an ELF file of 64 bits without program headers: it has the header `h` and the section headers `all`,
and `names` are the bytes that hold the names of the sections, each up to a zero. -/
structure Tables (file : List UInt8) (h : Header) (all : List Section) (names : List UInt8) : Prop where
  magic : [0x7f, 0x45, 0x4c, 0x46, 2, 1, 1] <+: file
  length : 64 ≤ file.length ∧ file.length < 2 ^ 64
  segments : segmentOffset file = 0
  head : header wideLittle file = h
  entries : h.entrySize = 64 ∧ h.count = all.length
  place : h.tableOffset ≠ 0 ∧ h.tableOffset % 8 = 0 ∧ h.tableOffset + all.length * 64 ≤ file.length
  entry : ∀ i s, all[i]? = some s →
    Section.ofFields (wideLittle.fields wideLittle.sectionSizes (file.drop (h.tableOffset + i * 64))) = s
  sound : ∀ s ∈ all, s.IsSound file all
  nameSection : h.nameTable ≠ 0 ∧ h.nameTable ≠ escapedIndex ∧ ∃ t, all[h.nameTable]? = some t ∧
    t.type = stringTableType ∧ (file.drop t.offset).take t.size = names
  named : ∀ s ∈ all, s.name ≤ names.length ∧ 0 ∈ names.drop s.name

/-- The name of a section. -/
def Section.nameIn (names : List UInt8) (s : Section) : List UInt8 := (names.drop s.name).takeWhile (· != 0)

namespace Library

/-- The library puts a stream into an ELF file of one layout. -/
def WritesLayout (lib : Library) : Prop :=
  ∀ stream : List UInt8, (fileWith summarySection stream).length < 2 ^ 64 →
    lib.wrap stream = .ok (fileWith summarySection stream)

/-- In an ELF file the library finds the first section that the tables give the name to, and its bytes. -/
def FollowsTables (lib : Library) : Prop :=
  ∀ file h all names, Tables file h all names →
    lib.unwrap? file = .ok ((all.find? fun s => s.nameIn names = summarySection).map fun s =>
      (file.drop s.offset).take s.size)

end Library

/-! ### Numbers of fixed size -/

private theorem length_encodeLittle (size n : Nat) : (encodeLittle size n).length = size := by
  induction size generalizing n with
  | zero => rfl
  | succ size ih => simp [encodeLittle, ih]

/-- A number that fits into its bytes is read back. -/
private theorem littleEndian_encodeLittle {size n : Nat} (h : n < 256 ^ size) :
    littleEndian (encodeLittle size n) = n := by
  induction size generalizing n with
  | zero =>
    have : n = 0 := by simpa using h
    simp [encodeLittle, littleEndian, this]
  | succ size ih =>
    have hdiv : n / 256 < 256 ^ size := by
      rw [Nat.pow_succ] at h
      omega
    have hbyte : n.toUInt8.toNat = n % 256 := by simp
    rw [encodeLittle, littleEndian, ih hdiv, hbyte]
    omega

private theorem length_encodeFields (fields : List (Nat × Nat)) :
    (encodeFields fields).length = (fields.map Prod.fst).sum := by
  induction fields with
  | nil => rfl
  | cons field fields ih =>
    rw [encodeFields, List.flatMap_cons, List.length_append, length_encodeLittle, ← encodeFields, ih, List.map_cons,
      List.sum_cons]

/-- Numbers that fit into their bytes are read back, whatever follows. -/
private theorem fields_encodeFields {fields : List (Nat × Nat)} (h : ∀ x ∈ fields, x.2 < 256 ^ x.1)
    (rest : List UInt8) :
    wideLittle.fields (fields.map Prod.fst) (encodeFields fields ++ rest) = fields.map Prod.snd := by
  induction fields with
  | nil => rfl
  | cons field fields ih =>
    obtain ⟨size, n⟩ := field
    have hn : n < 256 ^ size := h (size, n) List.mem_cons_self
    have hlen := length_encodeLittle size n
    have hvalue : wideLittle.value (encodeLittle size n) = n := littleEndian_encodeLittle hn
    have hsplit : encodeFields ((size, n) :: fields) ++ rest =
        encodeLittle size n ++ (encodeFields fields ++ rest) := by
      simp [encodeFields]
    rw [hsplit, List.map_cons, List.map_cons, Format.fields, List.take_left' hlen, List.drop_left' hlen, hvalue,
      ih fun x hx => h x (List.mem_cons_of_mem _ hx)]

/-! ### The library for ELF files -/

namespace Tables

variable {file names : List UInt8} {h : Header} {all : List Section}

private theorem format_eq (ht : Tables file h all names) : format file = .ok wideLittle := by
  obtain ⟨rest, rfl⟩ := ht.magic
  have hlen := ht.length.1
  unfold format
  rw [if_neg (by omega)]
  exact (if_neg (show ¬_ < wideLittle.headerSize from Nat.not_lt.mpr hlen)).trans (if_pos (by decide))

private theorem sections_eq (ht : Tables file h all names) : sections wideLittle file h = .ok all := by
  obtain ⟨offset, entrySize, count, place⟩ := h
  obtain ⟨hentry, hcount⟩ := ht.entries
  obtain ⟨hoffset, -, hroom⟩ := ht.place
  dsimp only at hentry hcount hoffset hroom
  subst hentry hcount
  have hne : all.length ≠ 0 := by
    obtain ⟨-, -, t, hplace, -⟩ := ht.nameSection
    have := (List.getElem?_eq_some_iff.mp hplace).1
    omega
  have hnumber : sectionCount wideLittle file ⟨offset, 64, all.length, place⟩ = .ok all.length := if_pos hne
  have hread : sectionsAt wideLittle file offset all.length .sectionTable = .ok all := by
    rw [sectionsAt, show wideLittle.sectionSize = 64 from rfl, if_pos hroom]
    congr 1
    refine List.ext_getElem (by simp) fun i h₁ h₂ => ?_
    rw [List.getElem_map, List.getElem_range]
    exact ht.entry i all[i] (List.getElem?_eq_getElem h₂)
  unfold sections
  rw [hnumber]
  exact (if_neg hoffset).trans ((if_neg hne).trans ((if_neg (show ¬64 ≠ wideLittle.sectionSize by decide)).trans hread))

/-- The names lie inside the file, and are found there. -/
private theorem exists_nameTable (ht : Tables file h all names) :
    ∃ start, nameTable wideLittle file h all = .ok (some (start, start + names.length)) ∧
      start + names.length ≤ file.length ∧ (file.drop start).take names.length = names := by
  obtain ⟨hzero, hescape, t, hplace, htype, hnames⟩ := ht.nameSection
  have hinside := (ht.sound t (List.mem_of_getElem? hplace)).inside
  have hlen := ht.length.2
  have hsize : names.length = t.size := by
    rw [← hnames, List.length_take, List.length_drop]
    omega
  refine ⟨t.offset, ?_, by omega, by rw [hsize, hnames]⟩
  have hindex : nameTableIndex wideLittle file h = .ok h.nameTable := by
    unfold nameTableIndex
    rw [if_neg hescape]
    exact if_neg hzero
  have hbits : ¬t.type = noBitsType := by
    rw [htype]
    decide
  have hend : ¬UInt64.size ≤ t.offset + t.size := by
    rw [UInt64.size]
    omega
  unfold nameTable
  rw [hindex]
  dsimp only [bind, Except.bind]
  rw [hplace, hsize]
  exact (if_neg hbits).trans (if_neg hend)

private theorem sectionName?_eq (ht : Tables file h all names) {start : Nat}
    (hroom : start + names.length ≤ file.length) (hnames : (file.drop start).take names.length = names) {s : Section}
    (hs : s ∈ all) : sectionName? file (some (start, start + names.length)) s = some (s.nameIn names) := by
  obtain ⟨hle, hzero⟩ := ht.named s hs
  have hbytes : bytesAt? file (start + s.name) (start + names.length - (start + s.name)) =
      some (names.drop s.name) := by
    have hlen : start + names.length - (start + s.name) = names.length - s.name := by omega
    rw [bytesAt?, if_pos (.inr (by omega)), hlen, ← List.drop_drop, ← List.drop_take, hnames]
  unfold sectionName?
  simp only [Option.bind_eq_bind, Option.bind_some]
  rw [if_pos (by omega), hbytes]
  exact if_pos hzero

private theorem checkSymbols_eq (ht : Tables file h all names) (type : Nat) (htype : type = symbolTableType ∨
    stringTableType < type) : checkSymbols wideLittle file all type = .ok () := by
  unfold checkSymbols
  split
  · rename_i place s hplace hfind
    have hs := List.mem_of_find?_eq_some hfind
    have hsound := ht.sound s hs
    have hlen := ht.length.2
    have hstype : s.type = type := by simpa using List.find?_some hfind
    have hsymbols : s.type = symbolTableType := by
      rcases htype with rfl | hlarge
      · exact hstype
      · have := hsound.type
        omega
    obtain ⟨-, hmod, t, hlink, hstrings⟩ := hsound.symbols hsymbols
    have htinside := (ht.sound t (List.mem_of_getElem? hlink)).inside
    have hinside := hsound.inside
    have htable : isTable file s wideLittle.symbolSize = true := by
      simp [isTable, bytesAt?, hmod, hinside]
    have hcheck : checkStrings all s.link = .ok () := by
      unfold checkStrings
      split
      · rfl
      · have hend : ¬UInt64.size ≤ t.offset + t.size := by
          rw [UInt64.size]
          omega
        rw [hlink]
        exact (if_neg (not_not.mpr hstrings)).trans (if_neg hend)
    have hindices : all.filter (fun t => t.type = indexTableType ∧ t.link = place) = [] := by
      refine List.filter_eq_nil_iff.mpr fun t ht' => ?_
      have := (ht.sound t ht').type
      have hne : t.type ≠ indexTableType := by
        rw [indexTableType]
        rw [stringTableType] at this
        omega
      simp [hne]
    rw [htable, hcheck, hindices]
    rfl
  · rfl

/-- Following the tables is what finding a section does. -/
private theorem findSection?_eq (ht : Tables file h all names) (name : List UInt8) :
    findSection? name file = .ok ((all.find? fun s => s.nameIn names = name).map fun s =>
      (file.drop s.offset).take s.size) := by
  obtain ⟨start, htable, hroom, hnames⟩ := ht.exists_nameTable
  have hne : all.isEmpty = false := by
    obtain ⟨-, -, t, hplace, -⟩ := ht.nameSection
    exact List.isEmpty_eq_false_iff.mpr (List.ne_nil_of_mem (List.mem_of_getElem? hplace))
  have hfind : (all.find? fun s => sectionName? file (some (start, start + names.length)) s = some name) =
      all.find? fun s => s.nameIn names = name := by
    refine List.find?_congr fun s hs => ?_
    rw [ht.sectionName?_eq hroom hnames hs]
    simp
  simp only [findSection?, ht.format_eq, bind, Except.bind, ht.head, ht.sections_eq, hne, htable,
    ht.checkSymbols_eq symbolTableType (.inl rfl), ht.checkSymbols_eq dynamicSymbolTableType (.inr (by decide)), hfind]
  cases hs : all.find? fun s => s.nameIn names = name with
  | none => rfl
  | some s =>
    have hsound := ht.sound s (List.mem_of_find?_eq_some hs)
    have hbits : ¬s.type = noBitsType := by
      have := hsound.type
      rw [noBitsType]
      rw [stringTableType] at this
      omega
    have hdata : sectionData file s = .ok ((file.drop s.offset).take s.size) := by
      rw [sectionData, if_neg hbits, bytesAt?, if_pos (.inr hsound.inside)]
    simp only [hdata]
    rfl

end Tables

private theorem writesLayout_elf : elf.WritesLayout := fun _ _ => rfl

private theorem followsTables_elf : elf.FollowsTables := by
  intro file h all names ht
  show (findSection? summarySection file).mapError Cause.message = _
  rw [ht.findSection?_eq summarySection]
  rfl

/-! ### Section headers -/

/-- Every field of a section header fits into its bytes. -/
structure Section.Fits (s : Section) : Prop where
  words : s.name < 2 ^ 32 ∧ s.type < 2 ^ 32 ∧ s.link < 2 ^ 32 ∧ s.info < 2 ^ 32
  places : s.flags < 2 ^ 64 ∧ s.address < 2 ^ 64 ∧ s.offset < 2 ^ 64 ∧ s.size < 2 ^ 64 ∧ s.alignment < 2 ^ 64 ∧
    s.entrySize < 2 ^ 64

private theorem Section.length_encode (s : Section) : s.encode.length = 64 := by
  rw [Section.encode, length_encodeFields]
  rfl

private theorem Section.ofFields_encode {s : Section} (h : s.Fits) (rest : List UInt8) :
    Section.ofFields (wideLittle.fields wideLittle.sectionSizes (s.encode ++ rest)) = s := by
  have hfits : ∀ x ∈ [(4, s.name), (4, s.type), (8, s.flags), (8, s.address), (8, s.offset), (8, s.size), (4, s.link),
      (4, s.info), (8, s.alignment), (8, s.entrySize)], x.2 < 256 ^ x.1 := by
    obtain ⟨hw, hp⟩ := h
    simp
    omega
  have hfields := fields_encodeFields hfits rest
  simp only [List.map_cons, List.map_nil] at hfields
  have hsizes : wideLittle.sectionSizes = [4, 4, 8, 8, 8, 8, 4, 4, 8, 8] := rfl
  rw [Section.encode, hsizes, hfields]
  rfl

private theorem drop_flatMap_encode (ss : List Section) (i : Nat) :
    (ss.flatMap Section.encode).drop (i * 64) = (ss.drop i).flatMap Section.encode := by
  induction ss generalizing i with
  | nil => simp
  | cons s ss ih =>
    cases i with
    | zero => simp
    | succ i =>
      have hlen : (i + 1) * 64 = s.encode.length + i * 64 := by
        rw [s.length_encode]
        omega
      rw [List.flatMap_cons, hlen, List.drop_length_add_append, ih, List.drop_succ_cons]

private theorem length_flatMap_encode (ss : List Section) : (ss.flatMap Section.encode).length = ss.length * 64 := by
  induction ss with
  | nil => rfl
  | cons s ss ih =>
    rw [List.flatMap_cons, List.length_append, s.length_encode, ih, List.length_cons]
    omega

/-! ### The tables of the layout -/

private theorem length_encodeHeader (tableOffset : Nat) : (encodeHeader tableOffset).length = 64 := by
  rw [encodeHeader, List.length_append, length_encodeFields]
  rfl

/-- The header is read back if the place of the section headers fits into 64 bits. -/
private theorem fields_encodeHeader {tableOffset : Nat} (h : tableOffset < 2 ^ 64) (rest : List UInt8) :
    wideLittle.fields wideLittle.headerSizes ((encodeHeader tableOffset ++ rest).drop 16) =
      [1, 62, 1, 0, 0, tableOffset, 0, 64, 0, 0, 64, 5, 4] := by
  have hfits : ∀ x ∈ [(2, 1), (2, 62), (4, 1), (8, 0), (8, 0), (8, tableOffset), (4, 0), (2, 64), (2, 0), (2, 0),
      (2, 64), (2, 5), (2, 4)], x.2 < 256 ^ x.1 := by
    simp
    omega
  have hdrop : ∀ body : List UInt8,
      ([0x7f, 0x45, 0x4c, 0x46, 2, 1, 1, 0, 0, 0, 0, 0, 0, 0, 0, 0] ++ body).drop 16 = body := fun _ => rfl
  rw [encodeHeader, List.append_assoc, hdrop]
  exact fields_encodeFields hfits rest

private theorem le_alignUp (n : Nat) : n ≤ alignUp n := by
  unfold alignUp
  omega

private theorem length_padding (n : Nat) : n + (padding n).length = alignUp n := by
  have := le_alignUp n
  rw [padding, List.length_replicate]
  omega

private theorem length_sectionNames : (sectionNames summarySection).length = 45 := by decide

/-- What comes before the section names. -/
def beforeNames (stream : List UInt8) : List UInt8 :=
  encodeHeader (alignUp (namesEnd summarySection stream.length)) ++ stream ++ padding (64 + stream.length) ++
    List.replicate 24 0 ++ [0]

/-- What comes before the section headers. -/
def beforeSections (stream : List UInt8) : List UInt8 :=
  beforeNames stream ++ sectionNames summarySection ++ padding (namesEnd summarySection stream.length)

private theorem fileWith_eq (stream : List UInt8) : fileWith summarySection stream =
    beforeSections stream ++ (sectionsFor summarySection stream.length).flatMap Section.encode := by
  simp [fileWith, beforeSections, beforeNames]

variable (stream : List UInt8)

private theorem length_beforeNames : (beforeNames stream).length = symbolOffset stream.length + 25 := by
  have hpad := length_padding (64 + stream.length)
  simp only [beforeNames, List.length_append, length_encodeHeader, List.length_replicate, List.length_singleton]
  rw [symbolOffset]
  omega

private theorem length_beforeSections :
    (beforeSections stream).length = alignUp (namesEnd summarySection stream.length) := by
  have hpad := length_padding (namesEnd summarySection stream.length)
  rw [namesEnd] at hpad ⊢
  rw [beforeSections, List.length_append, List.length_append, length_beforeNames, namesEnd]
  exact hpad

private theorem length_fileWith :
    (fileWith summarySection stream).length = (beforeSections stream).length + 320 := by
  have hcount : (sectionsFor summarySection stream.length).length = 5 := rfl
  rw [fileWith_eq, List.length_append, length_flatMap_encode, hcount]

/-- The stream, the symbol table and the names come one after the other. -/
private theorem places_le : 64 + stream.length ≤ symbolOffset stream.length ∧
    symbolOffset stream.length + 70 ≤ (beforeSections stream).length := by
  have hsymbols := le_alignUp (64 + stream.length)
  have hnames := le_alignUp (namesEnd summarySection stream.length)
  rw [← length_beforeSections, namesEnd, length_sectionNames] at hnames
  exact ⟨hsymbols, hnames⟩

/-- The header of the section with the stream, which has `n` bytes. -/
def streamSection (n : Nat) : Section := { name := 27, type := 1, offset := 64, size := n, alignment := 1 }

/-- The header of the symbol table. -/
def symbolSection (n : Nat) : Section :=
  { name := 19, type := symbolTableType, offset := symbolOffset n, size := 24, link := 3, info := 1, alignment := 8
    entrySize := 24 }

/-- The header of the section with the names. -/
def nameSection (n : Nat) : Section :=
  { name := 1, type := stringTableType, offset := symbolOffset n + 25, size := (sectionNames summarySection).length
    alignment := 1 }

private theorem sectionsFor_eq (n : Nat) : sectionsFor summarySection n =
    [{}, streamSection n, symbolSection n,
     { name := 11, type := stringTableType, offset := symbolOffset n + 24, size := 1, alignment := 1 },
     nameSection n] :=
  rfl

variable {stream}

private theorem fits_sectionsFor (h : (fileWith summarySection stream).length < 2 ^ 64) :
    ∀ s ∈ sectionsFor summarySection stream.length, s.Fits := by
  obtain ⟨hsymbols, hnames⟩ := places_le stream
  rw [length_fileWith] at h
  intro s hs
  simp only [sectionsFor, symbolTableType, stringTableType, length_sectionNames, List.mem_cons, List.not_mem_nil,
    or_false] at hs
  rcases hs with rfl | rfl | rfl | rfl | rfl
  all_goals
    constructor
    all_goals dsimp only
    all_goals omega

private theorem sound_sectionsFor : ∀ s ∈ sectionsFor summarySection stream.length,
    s.IsSound (fileWith summarySection stream) (sectionsFor summarySection stream.length) := by
  obtain ⟨hsymbols, hnames⟩ := places_le stream
  have hlen := length_sectionNames
  have hfile := length_fileWith stream
  intro s hs
  rw [sectionsFor_eq] at hs
  simp only [List.mem_cons, List.not_mem_nil, or_false] at hs
  rcases hs with rfl | rfl | rfl | rfl | rfl
  · exact ⟨by decide, Nat.zero_le _, fun h => absurd h (by decide)⟩
  · exact ⟨(by decide : 1 ≤ 3), by simp only [streamSection]; omega, fun h => absurd h (by decide : ¬1 = 2)⟩
  · refine ⟨(by decide : 2 ≤ 3), by simp only [symbolSection]; omega, fun _ => ?_⟩
    refine ⟨?_, (by decide : 24 % 24 = 0), _, rfl, rfl⟩
    simp only [symbolSection, symbolOffset, alignUp]
    omega
  · exact ⟨(by decide : 3 ≤ 3), by dsimp only; omega, fun h => absurd h (by decide : ¬3 = 2)⟩
  · exact ⟨(by decide : 3 ≤ 3), by simp only [nameSection]; omega, fun h => absurd h (by decide : ¬3 = 2)⟩

private theorem named_sectionsFor (n : Nat) : ∀ s ∈ sectionsFor summarySection n,
    s.name ≤ (sectionNames summarySection).length ∧ 0 ∈ (sectionNames summarySection).drop s.name := by
  intro s hs
  have hname : s.name ∈ [0, 27, 19, 11, 1] := by
    have := List.mem_map_of_mem (f := Section.name) hs
    exact this
  have hall : ∀ i ∈ [0, 27, 19, 11, 1], i ≤ (sectionNames summarySection).length ∧
      0 ∈ (sectionNames summarySection).drop i := by decide
  exact hall _ hname

/-- The section with the stream is the first one of its name. -/
private theorem find?_sectionsFor (n : Nat) :
    ((sectionsFor summarySection n).find? fun s => s.nameIn (sectionNames summarySection) = summarySection) =
      some (streamSection n) := by
  have hnull : ({} : Section).nameIn (sectionNames summarySection) ≠ summarySection := by decide
  have hstream : (streamSection n).nameIn (sectionNames summarySection) = summarySection := by
    show ((sectionNames summarySection).drop 27).takeWhile (· != 0) = summarySection
    decide
  rw [sectionsFor_eq, List.find?_cons_of_neg (by simpa using hnull), List.find?_cons_of_pos]
  simpa using hstream

/-- The tables of the layout are sound. -/
theorem tables_fileWith (h : (fileWith summarySection stream).length < 2 ^ 64) :
    Tables (fileWith summarySection stream) ⟨(beforeSections stream).length, 64, 5, 4⟩
      (sectionsFor summarySection stream.length) (sectionNames summarySection) := by
  obtain ⟨hsymbols, hnames⟩ := places_le stream
  have hlen := length_fileWith stream
  have hbefore := length_beforeSections stream
  have hoffset : alignUp (namesEnd summarySection stream.length) < 2 ^ 64 := by omega
  have hfields := fields_encodeHeader hoffset
  have hstart : ∃ rest, fileWith summarySection stream =
      encodeHeader (alignUp (namesEnd summarySection stream.length)) ++ rest := by
    simp only [fileWith, List.append_assoc]
    exact ⟨_, rfl⟩
  obtain ⟨rest, hstart⟩ := hstart
  constructor
  case magic =>
    rw [hstart]
    exact ⟨_, rfl⟩
  case length => omega
  case segments =>
    rw [segmentOffset, hstart, hfields]
    rfl
  case head =>
    rw [header, hstart, hfields, hbefore]
    rfl
  case entries => exact ⟨rfl, rfl⟩
  case place =>
    have hcount : (sectionsFor summarySection stream.length).length = 5 := rfl
    have hmod : alignUp (namesEnd summarySection stream.length) % 8 = 0 := Nat.mul_mod_left _ 8
    dsimp only
    rw [hcount]
    omega
  case entry =>
    intro i s hs
    obtain ⟨hi, rfl⟩ := List.getElem?_eq_some_iff.mp hs
    dsimp only
    rw [fileWith_eq, List.drop_length_add_append, drop_flatMap_encode, List.drop_eq_getElem_cons hi,
      List.flatMap_cons]
    exact Section.ofFields_encode (fits_sectionsFor h _ (List.getElem_mem hi)) _
  case sound => exact sound_sectionsFor
  case nameSection =>
    refine ⟨(by decide : 4 ≠ 0), (by decide : 4 ≠ escapedIndex), nameSection stream.length, rfl, rfl, ?_⟩
    rw [fileWith_eq, beforeSections, List.append_assoc, List.append_assoc]
    show (List.drop (symbolOffset stream.length + 25) _).take (sectionNames summarySection).length = _
    rw [← length_beforeNames, List.drop_left, List.take_left]
  case named => exact named_sectionsFor _

/-- The bytes of the section with the stream. -/
private theorem take_drop_fileWith (stream : List UInt8) :
    ((fileWith summarySection stream).drop 64).take stream.length = stream := by
  simp only [fileWith, List.append_assoc]
  rw [← length_encodeHeader (alignUp (namesEnd summarySection stream.length)), List.drop_left, List.take_left]

/-! ### Streams in files -/

namespace Library

variable {lib : Library}

private theorem unwrap?_wrap (hread : lib.FollowsTables) {stream : List UInt8}
    (h : (fileWith summarySection stream).length < 2 ^ 64) :
    lib.unwrap? (fileWith summarySection stream) = .ok (some stream) := by
  rw [hread _ _ _ _ (tables_fileWith h), find?_sectionsFor, Option.map_some]
  exact congrArg (fun bytes => Except.ok (some bytes)) (take_drop_fileWith stream)

/-- Streams come back from the files they were put into. -/
private theorem unwrapAll_wrap (hwrite : lib.WritesLayout) (hread : lib.FollowsTables) {streams : List (List UInt8)}
    (h : ∀ s ∈ streams, (fileWith summarySection s).length < 2 ^ 64) :
    ∃ files, streams.mapM lib.wrap = .ok files ∧ lib.unwrapAll files = .ok streams := by
  have hall : ∃ files, streams.mapM lib.wrap = .ok files ∧ files.mapM lib.unwrap? = .ok (streams.map some) := by
    induction streams with
    | nil => exact ⟨[], rfl, rfl⟩
    | cons s streams ih =>
      obtain ⟨files, hwrap, hunwrap⟩ := ih fun t ht => h t (List.mem_cons_of_mem s ht)
      have hs := h s List.mem_cons_self
      refine ⟨fileWith summarySection s :: files, ?_, ?_⟩
      · rw [List.mapM_cons, hwrite s hs, hwrap]
        rfl
      · rw [List.mapM_cons, unwrap?_wrap hread hs, hunwrap]
        rfl
  obtain ⟨files, hwrap, hunwrap⟩ := hall
  refine ⟨files, hwrap, ?_⟩
  rw [unwrapAll, hunwrap]
  simp [bind, Except.bind, pure, Except.pure, List.reduceOption]

/-- The first file that is refused decides. -/
private theorem unwrapAll_error {files : List (List UInt8)} {file : List UInt8} (hmem : file ∈ files) {why : String}
    (hfile : lib.unwrap? file = .error why) :
    ∃ before bad after why, files = before ++ bad :: after ∧ (∀ g ∈ before, ∃ s?, lib.unwrap? g = .ok s?) ∧
      lib.unwrap? bad = .error why ∧ lib.unwrapAll files = .error why := by
  induction files with
  | nil => cases hmem
  | cons g files ih =>
    cases hg : lib.unwrap? g with
    | error e =>
      refine ⟨[], g, files, e, rfl, by simp, hg, ?_⟩
      rw [unwrapAll, List.mapM_cons, hg]
      rfl
    | ok o =>
      have hne : file ∈ files := by
        rcases List.mem_cons.mp hmem with rfl | hm
        · rw [hg] at hfile
          cases hfile
        · exact hm
      obtain ⟨before, bad, after, e, hsplit, hbefore, hbad, hall⟩ := ih hne
      refine ⟨g :: before, bad, after, e, by rw [hsplit, List.cons_append], ?_, hbad, ?_⟩
      · intro g' hg'
        rcases List.mem_cons.mp hg' with rfl | hg'
        · exact ⟨o, hg⟩
        · exact hbefore g' hg'
      · rw [unwrapAll] at hall ⊢
        rw [List.mapM_cons, hg]
        cases hrest : files.mapM lib.unwrap? with
        | error e' =>
          rw [hrest] at hall
          exact hall
        | ok os =>
          rw [hrest] at hall
          cases hall

end Library

end ObjectFile

namespace Pass

/-- Reads streams one after the other, each on its own, up to the first one that is refused, and adds up the records. -/
def readInTurn (pass : Pass) (p : Program) (roster : Roster) :
    List (List UInt8) → (Pass × Program) × Except Error Nat
  | [] => ((pass, p), .ok 0)
  | bytes :: rest =>
    match pass.readStream p roster bytes with
    | (state, .error e) => (state, .error e)
    | (state, .ok n) =>
      match state.1.readInTurn state.2 roster rest with
      | (state, .error e) => (state, .error e)
      | (state, .ok m) => (state, .ok (n + m))

/-- The records that were read before are added to the number, and change nothing else. -/
private theorem readAll_add (roster : Roster) (streams : List (List UInt8)) (count : Nat)
    (state : Program × Summaries) :
    readAll roster streams count state =
      ((readAll roster streams 0 state).1, (readAll roster streams 0 state).2.map (count + ·)) := by
  induction streams generalizing count state with
  | nil => rfl
  | cons bytes rest ih =>
    unfold readAll
    generalize Stream.read roster state bytes = result
    obtain ⟨state', fault | n⟩ := result
    · rfl
    · dsimp only
      rw [ih (count + n), ih (0 + n)]
      generalize (readAll roster rest 0 state').2 = last
      cases last with
      | error e => rfl
      | ok m =>
        have : count + n + m = count + (0 + n + m) := by omega
        simp only [Except.map, this]

private theorem readStreams_cons (pass : Pass) (p : Program) (roster : Roster) (bytes : List UInt8)
    (rest : List (List UInt8)) :
    pass.readStreams p roster (bytes :: rest) =
      match pass.readStream p roster bytes with
      | (state, .error e) => (state, .error e)
      | (state, .ok n) =>
        ((state.1.readStreams state.2 roster rest).1, (state.1.readStreams state.2 roster rest).2.map (n + ·)) := by
  unfold readStream readStreams
  rw [readAll, readAll]
  generalize Stream.read roster (p, pass.summariesOrEmpty) bytes = result
  obtain ⟨state', fault | n⟩ := result
  · rfl
  · dsimp only
    rw [readAll_add roster rest (0 + n), Nat.zero_add]
    rfl

/-- Only a pass without summaries that reads nothing shows a difference: reading streams gives it empty ones. -/
theorem readStreams_eq_readInTurn (pass : Pass) (p : Program) (roster : Roster) (streams : List (List UInt8))
    (h : pass.summaries.isSome ∨ streams ≠ []) :
    pass.readStreams p roster streams = pass.readInTurn p roster streams := by
  induction streams generalizing pass p with
  | nil =>
    obtain ⟨options, _ | s⟩ := pass
    · simp at h
    · rfl
  | cons bytes rest ih =>
    have hsome : (pass.readStream p roster bytes).1.1.summaries.isSome := rfl
    rw [readStreams_cons, readInTurn]
    generalize pass.readStream p roster bytes = result at hsome
    obtain ⟨state, e | n⟩ := result
    · rfl
    · dsimp only
      rw [ih state.1 state.2 (.inl hsome)]
      generalize state.1.readInTurn state.2 roster rest = last
      obtain ⟨state', e | m⟩ := last <;> rfl

/-- If the library for object files writes the layout and follows the tables, streams come back in order from the files
they were put into, and reading the files does what reading the streams in turn does, up to the first fault, and gives
the sum of the counts.  Whatever the library does, if it refuses one of the files, the first such file decides the
error, and pass and program stay as they were. -/
theorem object_files_carry_streams (lib : ObjectFile.Library) (pass : Pass) (p : Program) (roster : Roster) :
    (lib.WritesLayout → lib.FollowsTables → ∀ streams : List (List UInt8), streams ≠ [] →
      (∀ s ∈ streams, (ObjectFile.fileWith ObjectFile.summarySection s).length < 2 ^ 64) →
      ∃ files, streams.mapM lib.wrap = .ok files ∧ lib.unwrapAll files = .ok streams ∧
        pass.readObjects lib p roster files = pass.readInTurn p roster streams) ∧
    ∀ files : List (List UInt8), (∃ file ∈ files, ∃ why, lib.unwrap? file = .error why) →
      ∃ before bad after why, files = before ++ bad :: after ∧ (∀ f ∈ before, ∃ s?, lib.unwrap? f = .ok s?) ∧
        lib.unwrap? bad = .error why ∧ pass.readObjects lib p roster files = ((pass, p), .error (.object why)) := by
  constructor
  · intro hwrite hread streams hne hfit
    obtain ⟨files, hwrap, hunwrap⟩ := ObjectFile.Library.unwrapAll_wrap hwrite hread hfit
    refine ⟨files, hwrap, hunwrap, ?_⟩
    rw [readObjects, hunwrap]
    exact readStreams_eq_readInTurn pass p roster streams (.inr hne)
  · rintro files ⟨file, hmem, why, hfile⟩
    obtain ⟨before, bad, after, why, hsplit, hbefore, hbad, hall⟩ := ObjectFile.Library.unwrapAll_error hmem hfile
    refine ⟨before, bad, after, why, hsplit, hbefore, hbad, ?_⟩
    rw [readObjects, hall]

/-- A program with two functions. -/
def pairProgram : Program :=
  Source.layOut
    [.function ⟨"f", [], [], {}, some [⟨"entry", [⟨none, .other "ret", []⟩]⟩]⟩,
     .function ⟨"g", [], [], {}, some [⟨"entry", [⟨none, .other "ret", []⟩]⟩]⟩]

/-- A stream for each of the functions, and one that ends too early. -/
def pairStreams : List (List UInt8) := [[1, 0, 10, 1, 107, 0], [1, 1, 1, 0], []]

/-- The files for these streams. -/
def pairFiles : List (List UInt8) := pairStreams.map (ObjectFile.fileWith ObjectFile.summarySection)

theorem object_files_carry_pairStreams :
    let roster := Roster.ofProgram pairProgram
    let loaded := ({} : Pass).readObjects ObjectFile.elf pairProgram roster pairFiles
    ObjectFile.elf.WritesLayout ∧ ObjectFile.elf.FollowsTables ∧
    pairStreams.mapM ObjectFile.elf.wrap = .ok pairFiles ∧ ObjectFile.elf.unwrapAll pairFiles = .ok pairStreams ∧
    loaded = ({} : Pass).readInTurn pairProgram roster pairStreams ∧
    loaded.2 = .error (.stream ⟨0, .unexpectedEnd⟩) ∧ loaded.1.2.live = [0, 1, 2] ∧
    (({} : Pass).readObjects ObjectFile.elf pairProgram roster (pairFiles.take 2)).2 = .ok 2 ∧
    ∃ before bad after why, pairFiles ++ [[0x7f, 0x45], [0]] = before ++ bad :: after ∧
      (∀ f ∈ before, ∃ s?, ObjectFile.elf.unwrap? f = .ok s?) ∧ ObjectFile.elf.unwrap? bad = .error why ∧
      ({} : Pass).readObjects ObjectFile.elf pairProgram roster (pairFiles ++ [[0x7f, 0x45], [0]]) =
        (({}, pairProgram), .error (.object why)) := by
  have hcarry := object_files_carry_streams ObjectFile.elf {} pairProgram (Roster.ofProgram pairProgram)
  have hlen : ∀ s ∈ pairStreams, (ObjectFile.fileWith ObjectFile.summarySection s).length < 2 ^ 64 := by
    decide +kernel
  obtain ⟨files, hwrap, hunwrap, hread⟩ := hcarry.1 ObjectFile.writesLayout_elf ObjectFile.followsTables_elf
    pairStreams (by decide) hlen
  obtain rfl : files = pairFiles := Except.ok.inj (hwrap.symm.trans rfl)
  refine ⟨ObjectFile.writesLayout_elf, ObjectFile.followsTables_elf, hwrap, hunwrap, hread, by decide +kernel,
    by decide +kernel, by decide +kernel, hcarry.2 _ ⟨[0x7f, 0x45], by simp, "Could not read file magic", ?_⟩⟩
  decide +kernel

end Pass

end Accelerator
