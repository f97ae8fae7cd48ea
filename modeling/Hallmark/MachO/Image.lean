import Hallmark.FileKind
import Hallmark.Layout

/-!
# Mach-O images

An image is a header and a list of load commands, which say where its segments and its symbol table are.
-/

namespace Hallmark.MachO

/-- The size of the header of an image. -/
def headerSize (words : WordSize) : Nat := words.pick 28 32

/-- The command that loads a segment of this width. -/
def segmentCommand (words : WordSize) : Nat := words.pick 0x1 0x19

/-- The size of the command that loads a segment, without its sections. -/
def segmentSize (words : WordSize) : Nat := words.pick 56 72

/-- The size of the description of a section. -/
def sectionSize (words : WordSize) : Nat := words.pick 68 80

def symbolSize (words : WordSize) : Nat := words.pick 12 16

/-- The command that says where the symbol table is. -/
def symbolTableCommand : Nat := 0x2

/-- The command that divides the symbol table into local, defined and undefined symbols. -/
def symbolRangesCommand : Nat := 0xb

def loadLibraryCommand : Nat := 0xc

/-- A load command with its bytes, its number and size included. -/
structure Command where
  number : Nat
  bytes : Bytes
  deriving Repr, DecidableEq

/-- The load commands up to the first broken one. -/
structure CommandList where
  commands : List Command
  fault : Option ImageFault
  deriving Repr, DecidableEq

structure Section where
  name : Bytes
  address : Nat
  size : Nat
  /-- The bytes that the file holds for the section: none at all for sections of zeros. -/
  content : Option Bytes
  deriving Repr, DecidableEq

/-- The symbol table of an image: its records, and the place of its names in the file. -/
structure SymbolTable where
  records : List Bytes
  stringsStart : Nat
  stringsStop : Nat
  deriving Repr, DecidableEq

/-- An image of one processor. -/
structure Image where
  layout : Layout
  cpu : Nat
  commands : CommandList
  sections : List Section
  symbols : SymbolTable
  deriving Repr, DecidableEq

namespace CommandList

def push (command : Command) (list : CommandList) : CommandList :=
  { list with commands := command :: list.commands }

/-- At most `count` commands from `offset` of the table.  Each starts with its number and its size. -/
def read (l : Layout) (table : Bytes) : (count : Nat) → (offset : Nat) → CommandList
  | 0, _ => ⟨[], none⟩
  | count + 1, offset =>
    match Bytes.slice? table offset 8 with
    | none => ⟨[], some .machoCommandHeader⟩
    | some header =>
      let size := l.word header 4
      if size < 8 then ⟨[], some .machoCommandSize⟩
      else
        match Bytes.slice? table offset size with
        | none => ⟨[], some .machoCommandSize⟩
        | some bytes => (read l table count (offset + size)).push ⟨l.word header 0, bytes⟩

/-- Runs over all commands; a broken one is a fault once those before it are done. -/
def run {σ : Type} (list : CommandList) (step : σ → Command → Except ImageFault σ) (first : σ) :
    Except ImageFault σ := do
  let last ← list.commands.foldlM step first
  match list.fault with
  | some fault => throw fault
  | none => return last

end CommandList

/-- The bytes of a command, of which at least `size` must be there. -/
def Command.fields (command : Command) (size : Nat) : Except ImageFault Bytes :=
  if size ≤ command.bytes.size then .ok command.bytes else .error .machoCommandTooShort

/-- True for the kinds of sections that are zeros in memory and nothing in the file. -/
def isZeroFill (flags : Nat) : Bool := [1, 12, 18].contains (flags % 256)

def Section.ofRecord (l : Layout) (data record : Bytes) : Section :=
  let address := l.address record 32 32
  let size := l.address record 36 40
  let offset := l.word record (l.pick 40 48)
  let flags := l.word record (l.pick 56 64)
  ⟨Bytes.beforeNul (record.extract 0 16), address, size,
    if isZeroFill flags then some #[] else Bytes.range? data offset size⟩

def segmentSections (l : Layout) (data : Bytes) (command : Command) : Except ImageFault (List Section) := do
  let fields ← command.fields (segmentSize l.words)
  let count := l.word fields (l.pick 48 64)
  let size := sectionSize l.words
  if fields.size < segmentSize l.words + count * size then
    throw .machoSectionCount
  return (Bytes.records (fields.extract (segmentSize l.words) fields.size) size count).map (Section.ofRecord l data)

/-- The symbol table that a command describes. -/
def symbolTable (l : Layout) (data : Bytes) (command : Command) : Except ImageFault SymbolTable := do
  let fields ← command.fields 24
  let offset := l.word fields 8
  let count := l.word fields 12
  let strings := l.word fields 16
  let some table := Bytes.range? data offset (count * symbolSize l.words) | throw .machoSymbolTable
  return ⟨Bytes.records table (symbolSize l.words) count, strings, strings + l.word fields 20⟩

/-- The parts of an image that its load commands have built up so far. -/
structure Parts where
  sections : List Section
  symbols : SymbolTable

/-- Takes up a load command: sections are appended, and a symbol table replaces the one before. -/
def Parts.step (l : Layout) (data : Bytes) (parts : Parts) (command : Command) : Except ImageFault Parts := do
  if command.number = segmentCommand l.words then
    return { parts with sections := parts.sections ++ (← segmentSections l data command) }
  else if command.number = symbolTableCommand then
    return { parts with symbols := ← symbolTable l data command }
  else
    return parts

/-- The byte order of an image, which its magic number shows. -/
def byteOrder (data : Bytes) : ByteOrder := if data.getD 0 0 = 0xfe then .big else .little

/-- Reads an image of the given width.  Commands behind a broken one are left aside here. -/
def Image.ofBytes (words : WordSize) (data : Bytes) : Except ImageFault Image := do
  let layout : Layout := ⟨words, byteOrder data⟩
  let some header := Bytes.slice? data 0 (headerSize words) | throw .machoHeader
  let commands :=
    match Bytes.range? data (headerSize words) (layout.word header 20) with
    | none => ⟨[], some .machoCommandTable⟩
    | some table => CommandList.read layout table (layout.word header 16) 0
  let parts ← commands.commands.foldlM (Parts.step layout data) ⟨[], ⟨[], 0, 0⟩⟩
  return ⟨layout, layout.word header 4, commands, parts.sections, parts.symbols⟩

/-- What a file holds for this format: several images, or one. -/
inductive Content where
  | fat
  | thin (image : Image)
  deriving Repr, DecidableEq

def Content.ofBytes (data : Bytes) : Except ImageFault Content := do
  match ← FileKind.ofBytes data with
  | .machOFat => return .fat
  | .machO words => return .thin (← Image.ofBytes words data)
  | _ => throw .notMachO

end Hallmark.MachO
