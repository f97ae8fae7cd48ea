import Hallmark.FileKind
import Hallmark.Pe.ImportTable
import Hallmark.Pe.ResourceTree
import Hallmark.Pe.Section

/-!
# PE images

The headers of an image, its sections, and where its import, resource and export tables are.
-/

namespace Hallmark.Pe

/-- A section as its header describes it. -/
structure SectionHeader where
  rawName : Bytes
  virtualAddress : UInt32
  virtualSize : UInt32
  rawSize : UInt32
  rawOffset : UInt32
  deriving Repr, DecidableEq

/-- A section with the bytes that the file holds for it. -/
structure Section extends SectionHeader where
  bytes : Bytes
  deriving Repr, DecidableEq

/-- The place of a table in an image. -/
structure Directory where
  rva : UInt32
  size : UInt32
  deriving Repr, DecidableEq

/-- The headers of an image: facts, sections in order, and the directories whose address is not zero. -/
structure Image where
  words : WordSize
  timestamp : UInt32
  entrypoint : UInt32
  sections : List SectionHeader
  directories : List (Option Directory)
  deriving Repr, DecidableEq

namespace SectionHeader

def size : Nat := 40

def ofRecord (record : Bytes) : SectionHeader :=
  let word := fun offset => (Bytes.u32? record offset).getD 0
  ⟨Bytes.beforeNul (record.extract 0 8), word 12, word 8, word 16, word 20⟩

/-- The number of bytes of the file that belong to the section. -/
def fileSize (s : SectionHeader) : Nat := min s.virtualSize.toNat s.rawSize.toNat

/-- True when the section is mapped over the address. -/
def contains (s : SectionHeader) (rva : UInt32) : Bool := extentContains s.virtualAddress s.virtualSize rva

/-- The bytes of the file from an address of the section up to its end. -/
def bytesFrom? (s : SectionHeader) (data : Bytes) (rva : UInt32) : Option Bytes :=
  let offset := rva.toNat - s.virtualAddress.toNat
  if s.virtualAddress ≤ rva ∧ offset < s.fileSize then
    Bytes.slice? data (s.rawOffset.toNat + offset) (s.fileSize - offset)
  else none

def load (data : Bytes) (s : SectionHeader) : Except ImageFault Section :=
  match Bytes.range? data s.rawOffset.toNat s.fileSize with
  | some bytes => .ok { s with bytes }
  | none => .error .peSection

end SectionHeader

def Section.summary (s : Section) : SectionSummary :=
  .ofBytes s.rawName s.virtualAddress s.virtualSize s.rawSize s.bytes

namespace Image

/-- The size of the part of the optional header that every image has. -/
def optionalHeaderSize (words : WordSize) : Nat := words.pick 96 112

/-- The directory stored at `offset`, unless its address is zero. -/
def directoryAt (optional : Bytes) (offset : Nat) : Option Directory := do
  let rva ← Bytes.u32? optional offset
  let size ← Bytes.u32? optional (offset + 4)
  if rva = 0 then none else some ⟨rva, size⟩

/-- Reads the headers of an image of the given width. -/
def ofBytes (words : WordSize) (data : Bytes) : Except ImageFault Image := do
  let place := (FileKind.peOffset? data).getD 0
  let fixed := optionalHeaderSize words
  let some headers := Bytes.slice? data place (24 + fixed) | throw .peHeaders
  let half := fun offset => ((Bytes.u16? headers offset).getD 0).toNat
  let word := fun offset => (Bytes.u32? headers offset).getD 0
  let optionalSize := half 20
  if optionalSize < fixed then
    throw .peOptionalHeaderTooSmall
  let some rest := Bytes.range? data (place + 24 + fixed) (optionalSize - fixed)
    | throw .peOptionalHeader
  let count := (word (24 + fixed - 4)).toNat
  if rest.size < 8 * count then
    throw .peDirectoryCount
  let sectionCount := half 6
  let some table := Bytes.range? data (place + 24 + optionalSize) (SectionHeader.size * sectionCount)
    | throw .peSectionTable
  return {
    words
    timestamp := word 8
    entrypoint := word 40
    sections := (Bytes.records table SectionHeader.size sectionCount).map .ofRecord
    directories := (List.range count).map fun i => directoryAt rest (8 * i) }

def directory? (image : Image) (index : Nat) : Option Directory := (image.directories[index]?).join

/-- The sections of an image with their bytes. -/
def loadSections (image : Image) (data : Bytes) : Except ImageFault (List Section) :=
  image.sections.mapM (SectionHeader.load data)

/-- The section over which a directory lies and the address of the directory, unless that is empty. -/
def locate? (image : Image) (sections : List Section) (index : Nat) : Option (Section × UInt32) := do
  let dir ← image.directory? index
  if dir.size = 0 then none
  let holder ← sections.find? fun s => s.contains dir.rva
  return (holder, dir.rva)

def imports? (image : Image) (sections : List Section) : Option ImportDirectory :=
  (image.locate? sections 1).map fun (holder, rva) => ⟨holder.bytes, rva, holder.virtualAddress, image.words⟩

/-- The name of the section that holds resources by convention. -/
def resourceSectionName : Bytes := Bytes.ofString ".rsrc"

/-- The resource tree of the resource directory: what follows it in its section, as offsets count from there. -/
def locatedResources? (image : Image) (sections : List Section) : Option ResourceSection := do
  let (holder, rva) ← image.locate? sections 2
  let bytes ← Bytes.from? holder.bytes (rva.toNat - holder.virtualAddress.toNat)
  return ⟨bytes, rva⟩

/-- The resource tree.  An image whose resource directory lies in no section may have its tree in the section named
for it. -/
def resources? (image : Image) (sections : List Section) : Option ResourceSection :=
  (image.locatedResources? sections).or <|
    (sections.find? fun s => s.rawName == resourceSectionName).map fun s => ⟨s.bytes, s.virtualAddress⟩

/-- The numbers of `width` octets in a table of `count` rows. -/
def column? (table : Bytes) (offset count width : Nat) : Option (List Nat) :=
  if offset + count * width ≤ table.size then
    some ((List.range count).filterMap fun i => Bytes.nat? table .little width (offset + i * width))
  else none

/-- The names that the image exports, in table order.  Forwarders, whose address lies in the export table itself, are
left out. -/
def exportNames? (image : Image) (data : Bytes) : Option (List Bytes) := do
  match image.directory? 0 with
  | none => some []
  | some dir =>
    let bytes ← image.sections.findSome? fun s => s.bytesFrom? data dir.rva
    let table ← Bytes.slice? bytes 0 dir.size.toNat
    let header ← Bytes.slice? table 0 40
    let word := fun offset => (Bytes.u32? header offset).getD 0
    let place := fun (rva : UInt32) => (rva - dir.rva).toNat
    let functions ← if word 28 = 0 then some []
      else column? table (place (word 28)) (word 20).toNat 4
    let named ← if word 32 = 0 then some []
      else if word 36 = 0 then none
      else do
        let names ← column? table (place (word 32)) (word 24).toNat 4
        let ordinals ← column? table (place (word 36)) (word 24).toNat 2
        some (names.zip ordinals)
    let functions := functions.toArray
    let exported ← named.mapM fun (pointer, ordinal) => do
      let name ← Bytes.cstring? table (place (UInt32.ofNat pointer)) table.size
      let address ← functions[ordinal]?
      return (name, place (UInt32.ofNat address))
    return (exported.filter fun (_, offset) => table.size ≤ offset).map (·.1)

/-- The names of the exports as text; none when the export table cannot be read. -/
def exports (image : Image) (data : Bytes) : List String :=
  (((image.exportNames? data).getD []).map Utf8.lossy).filter (· ≠ "")

end Image

structure Header where
  /-- The link time in seconds; none when it is zero. -/
  compilationTimestamp : Option UInt32
  entrypoint : UInt32
  /-- `x32` or `x64`. -/
  targetMachine : String
  containedSections : UInt64
  deriving Repr, DecidableEq

/-- The header of no image. -/
def Header.blank : Header := ⟨none, 0, "", 0⟩

/-- What the structural hashes read from an image. -/
structure Inputs where
  header : Header
  sections : List SectionSummary
  exports : List String
  imports : Option ImportDirectory
  resources : Option ResourceSection
  deriving Repr, DecidableEq

namespace Inputs

def ofImage (image : Image) (data : Bytes) : Except ImageFault Inputs := do
  let sections ← image.loadSections data
  return {
    header := {
      compilationTimestamp := if image.timestamp = 0 then none else some image.timestamp
      entrypoint := image.entrypoint
      targetMachine := image.words.pick "x32" "x64"
      containedSections := UInt64.ofNat sections.length }
    sections := sections.map Section.summary
    exports := image.exports data
    imports := image.imports? sections
    resources := image.resources? sections }

/-- Reads a file as an image and finds the inputs in it. -/
def read (data : Bytes) : Except ImageFault Inputs := do
  match ← FileKind.ofBytes data with
  | .pe words => ofImage (← Image.ofBytes words data) data
  | _ => throw .notPe

def ofBytes (data : Bytes) : Except Error Inputs :=
  match read data with
  | .ok inputs => .ok inputs
  | .error fault => .error (.image fault)

end Inputs

end Hallmark.Pe
