import Hallmark.FileKind
import Hallmark.Layout

/-!
# ELF images

The headers of an image and its two symbol tables, in both widths and both byte orders.
-/

namespace Hallmark.Elf

/-- The size of the header of an image. -/
def headerSize (words : WordSize) : Nat := words.pick 52 64

def programHeaderSize (words : WordSize) : Nat := words.pick 32 56

def sectionHeaderSize (words : WordSize) : Nat := words.pick 40 64

def symbolSize (words : WordSize) : Nat := words.pick 16 24

/-- The header of an image, as far as it says where the tables are. -/
structure Header where
  layout : Layout
  programOffset : Nat
  programEntrySize : Nat
  programCount : Nat
  sectionOffset : Nat
  sectionEntrySize : Nat
  sectionCount : Nat
  sectionNames : Nat
  deriving Repr, DecidableEq

structure SectionHeader where
  kind : Nat
  offset : Nat
  size : Nat
  link : Nat
  info : Nat
  deriving Repr, DecidableEq

/-- The kind of the static symbol table. -/
def symbolTableKind : Nat := 2

def stringTableKind : Nat := 3

/-- The kind of sections without content in the file. -/
def emptyKind : Nat := 8

/-- The kind of the dynamic symbol table. -/
def dynamicSymbolsKind : Nat := 11

/-- The kind of tables of section indices that do not fit in a symbol record. -/
def extendedIndicesKind : Nat := 18

/-- True for the three kinds of relocation sections. -/
def isRelocationKind (kind : Nat) : Bool := kind = 4 || kind = 9 || kind = 0x40000014

/-- A number that stands for one stored in the first section header. -/
def escapeCount : Nat := 0xffff

/-- A symbol table: its records, and the place of its names in the file. -/
structure SymbolTable where
  records : List Bytes
  strings : Option (Nat × Nat)
  deriving Repr, DecidableEq

/-- An image, as far as its symbols are concerned. -/
structure Image where
  layout : Layout
  static : SymbolTable
  dynamic : SymbolTable
  deriving Repr, DecidableEq

/-- Reads the header of an image of the given width. -/
def Header.ofBytes (words : WordSize) (data : Bytes) : Except ImageFault Header := do
  let some header := Bytes.slice? data 0 (headerSize words) | throw .elfHeader
  let order ← match header.getD 5 0 with
    | 1 => pure ByteOrder.little
    | 2 => pure ByteOrder.big
    | _ => throw .elfHeaderUnsupported
  if header.getD 6 0 ≠ 1 then
    throw .elfHeaderUnsupported
  let layout : Layout := ⟨words, order⟩
  let half := fun narrow wide => layout.number header 2 (layout.pick narrow wide)
  return {
    layout
    programOffset := layout.address header 28 32
    programEntrySize := half 42 54
    programCount := half 44 56
    sectionOffset := layout.address header 32 40
    sectionEntrySize := half 46 58
    sectionCount := half 48 60
    sectionNames := half 50 62 }

def SectionHeader.ofRecord (l : Layout) (record : Bytes) : SectionHeader where
  kind := l.word record 4
  offset := l.address record 16 24
  size := l.address record 20 32
  link := l.word record (l.pick 24 40)
  info := l.word record (l.pick 28 44)

namespace Header

/-- The first section header, which holds numbers that do not fit in the header of the image. -/
def firstSection? (h : Header) (data : Bytes) : Except ImageFault (Option SectionHeader) :=
  if h.sectionOffset = 0 then .ok none
  else if h.sectionEntrySize ≠ sectionHeaderSize h.layout.words then .error .elfSectionHeaderEntry
  else
    match Bytes.slice? data h.sectionOffset (sectionHeaderSize h.layout.words) with
    | some record => .ok (some (.ofRecord h.layout record))
    | none => .error .elfFirstSectionHeader

def programHeaderCount (h : Header) (data : Bytes) : Except ImageFault Nat :=
  if h.programCount < escapeCount then .ok h.programCount
  else do
    match ← h.firstSection? data with
    | some first => return first.info
    | none => throw .elfProgramHeaderCount

/-- Checks that the program headers are there. -/
def checkProgramHeaders (h : Header) (data : Bytes) : Except ImageFault Unit := do
  if h.programOffset ≠ 0 then
    let count ← h.programHeaderCount data
    if count ≠ 0 then
      if h.programEntrySize ≠ programHeaderSize h.layout.words then
        throw .elfProgramHeaderEntry
      if (Bytes.range? data h.programOffset (count * programHeaderSize h.layout.words)).isNone then
        throw .elfProgramHeaders

def sectionHeaderCount (h : Header) (data : Bytes) : Except ImageFault Nat :=
  if 0 < h.sectionCount then .ok h.sectionCount
  else do
    match ← h.firstSection? data with
    | some first => return first.size
    | none => return 0

def sections (h : Header) (data : Bytes) : Except ImageFault (List SectionHeader) := do
  if h.sectionOffset = 0 then
    return []
  let count ← h.sectionHeaderCount data
  if count = 0 then
    return []
  if h.sectionEntrySize ≠ sectionHeaderSize h.layout.words then
    throw .elfSectionHeaderEntry
  let size := sectionHeaderSize h.layout.words
  let some table := Bytes.range? data h.sectionOffset (count * size) | throw .elfSectionHeaders
  return (Bytes.records table size count).map (SectionHeader.ofRecord h.layout)

/-- Checks that one of the sections holds the section names. -/
def checkSectionNames (h : Header) (data : Bytes) (sections : List SectionHeader) : Except ImageFault Unit := do
  if !sections.isEmpty then
    let index ←
      if h.sectionNames = escapeCount then do
        match ← h.firstSection? data with
        | some first => pure first.link
        | none => pure 0
      else pure h.sectionNames
    if index = 0 then
      throw .elfSectionNamesMissing
    let some names := sections[index]? | throw .elfSectionNamesIndex
    if names.kind ≠ emptyKind ∧ UInt64.size ≤ names.offset + names.size then
      throw .elfSectionNames

end Header

/-- The place of the strings of the section with the given index. -/
def stringsOf (sections : List SectionHeader) (index : Nat) : Except ImageFault (Option (Nat × Nat)) := do
  if index = 0 then
    return none
  let some strings := sections[index]? | throw .elfSectionIndex
  if strings.kind ≠ stringTableKind then
    throw .elfStringSectionType
  if UInt64.size ≤ strings.offset + strings.size then
    throw .elfStringSection
  return some (strings.offset, strings.offset + strings.size)

/-- The content of a section as records of equal size. -/
def recordsOf? (data : Bytes) (header : SectionHeader) (size : Nat) : Option (List Bytes) := do
  let content ← Bytes.range? data header.offset header.size
  if content.size % size = 0 then some (Bytes.records content size (content.size / size)) else none

/-- The first symbol table of the given kind, empty when there is none, and its index. -/
def symbolTable (l : Layout) (data : Bytes) (sections : List SectionHeader) (kind : Nat) :
    Except ImageFault (SymbolTable × Nat) := do
  let some index := sections.findIdx? fun s => s.kind = kind | return (⟨[], none⟩, 0)
  let some header := sections[index]? | return (⟨[], none⟩, 0)
  let some symbols := recordsOf? data header (symbolSize l.words) | throw .elfSymbolTable
  let strings ← stringsOf sections header.link
  let extended := sections.filter fun s => s.kind = extendedIndicesKind && s.link = index
  if extended.any fun s => (recordsOf? data s 4).isNone then
    throw .elfExtendedIndices
  return (⟨symbols, strings⟩, index)

/-- Checks the sections that relocate by the static symbol table, from the last to the first: each names a section
that is there and holds no relocations itself. -/
def checkRelocations (sections : List SectionHeader) (tableIndex : Nat) : Except ImageFault Unit :=
  sections.reverse.forM fun s => do
    if isRelocationKind s.kind && s.link = tableIndex && s.info ≠ 0 then
      let some target := sections[s.info]? | throw .elfRelocationTarget
      if isRelocationKind target.kind then
        throw .elfRelocationChain

/-- Reads an image of the given width. -/
def Image.ofBytes (words : WordSize) (data : Bytes) : Except ImageFault Image := do
  let header ← Header.ofBytes words data
  header.checkProgramHeaders data
  let sections ← header.sections data
  header.checkSectionNames data sections
  let (static, index) ← symbolTable header.layout data sections symbolTableKind
  let (dynamic, _) ← symbolTable header.layout data sections dynamicSymbolsKind
  checkRelocations sections index
  return ⟨header.layout, static, dynamic⟩

end Hallmark.Elf
