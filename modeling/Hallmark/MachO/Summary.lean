import Hallmark.Digest.Md5
import Hallmark.Entropy
import Hallmark.MachO.Image
import Hallmark.Symbol.Hash
import Hallmark.Text.Utf8

/-!
# Mach-O summaries

The undefined symbols of an image, and a summary of its sections, libraries, imports and exports.
-/

namespace Hallmark

structure MachOSection where
  name : String
  address : UInt64
  size : UInt64
  entropy : Binary64
  /-- Absent when the file does not hold all bytes of the section. -/
  md5 : Option String
  deriving Repr, DecidableEq

/-- The structure of an image for one processor. -/
structure MachOImage where
  cpu : String
  sections : List MachOSection
  libraries : List String
  imports : List String
  exports : List String
  packer : Option String
  deriving Repr, DecidableEq

namespace MachO

def cpuName (cpu : Nat) : String :=
  match cpu with
  | 0x7 => "x86"
  | 0x1000007 => "x86_64"
  | 0xc => "arm"
  | 0x100000c => "arm64"
  | 0x12 => "ppc"
  | 0x1000012 => "ppc64"
  | _ => "unknown"

structure SymbolRange where
  first : Nat
  count : Nat
  deriving Repr, DecidableEq

/-- What the commands say about symbols: whether there is a table, and which of them are undefined. -/
structure SymbolCommands where
  hasTable : Bool
  undefined : Option SymbolRange
  deriving Repr, DecidableEq

/-- Takes up a load command; of several that give the range of undefined symbols the last counts. -/
def SymbolCommands.step (l : Layout) (found : SymbolCommands) (command : Command) :
    Except ImageFault SymbolCommands := do
  if command.number = symbolTableCommand then
    let _ ← command.fields 24
    return { found with hasTable := true }
  else if command.number = symbolRangesCommand then
    let fields ← command.fields 80
    return { found with undefined := some ⟨l.word fields 24, l.word fields 28⟩ }
  else
    return found

namespace Image

/-- What all commands of an image say about symbols. -/
def symbolCommands (image : Image) : Except ImageFault SymbolCommands :=
  image.commands.run (SymbolCommands.step image.layout) ⟨false, none⟩

def symbolName (image : Image) (data record : Bytes) : Except ImageFault Bytes :=
  let stop := image.symbols.stringsStop
  let start := image.symbols.stringsStart + image.layout.word record 0
  match if stop ≤ data.size then Bytes.cstring? data start stop else none with
  | some name => .ok name
  | none => .error .machoSymbolName

/-- True for symbols that no section defines. -/
def isUndefined (record : Bytes) : Bool := (record.getD 4 0) &&& 0x0e == 0

/-- The names of the undefined symbols, in table order; none without a symbol table or without its ranges. -/
def undefinedNames (image : Image) (data : Bytes) : Except ImageFault (Option (List String)) := do
  let found ← image.symbolCommands
  if found.hasTable && found.undefined.isSome then
    let names ← (image.symbols.records.filter isUndefined).mapM (image.symbolName data)
    return some (names.map Utf8.lossy)
  else
    return none

def sectionSummary (s : Section) : MachOSection :=
  let name := Utf8.lossy s.name
  let (address, size) := (UInt64.ofNat s.address, UInt64.ofNat s.size)
  match s.content with
  | some bytes =>
    if bytes.size = s.size then ⟨name, address, size, Entropy.rounded bytes, some (Digest.md5 bytes)⟩
    else ⟨name, address, size, ⟨0⟩, none⟩
  | none => ⟨name, address, size, ⟨0⟩, none⟩

/-- Takes up a load command: the name of a library that is loaded. -/
def libraryStep (l : Layout) (libraries : List String) (command : Command) : Except ImageFault (List String) := do
  if command.number = loadLibraryCommand then
    let fields ← command.fields 24
    let some name := Bytes.cstring? fields (l.word fields 8) fields.size | throw .machoCommandString
    return libraries ++ [Utf8.lossy name]
  else
    return libraries

/-- The libraries that an image loads, in order. -/
def libraries (image : Image) : Except ImageFault (List String) :=
  image.commands.run (libraryStep image.layout) []

/-- The names of the range of undefined symbols. -/
def imports (image : Image) (data : Bytes) : Except ImageFault (List String) := do
  match (← image.symbolCommands).undefined with
  | none => return []
  | some range =>
    let names ← ((image.symbols.records.drop range.first).take range.count).mapM (image.symbolName data)
    return names.map Utf8.lossy

/-- The names of the range of exported symbols; none when one of them cannot be read. -/
def exports (image : Image) (data : Bytes) : List String :=
  match image.commands.commands.find? fun c => c.number = symbolRangesCommand with
  | none => []
  | some command =>
    let first := image.layout.word command.bytes 16
    let count := image.layout.word command.bytes 20
    if count = 0 then []
    else if image.symbols.records.length < first + count then []
    else
      match ((image.symbols.records.drop first).take count).mapM (image.symbolName data) with
      | .ok names => names.map Utf8.lossy
      | .error _ => []

/-- The name of the section that holds packed code. -/
def packedSectionName : Bytes := Bytes.ofString "upxTEXT"

def summary (image : Image) (data : Bytes) : Except ImageFault MachOImage := do
  let libraries ← image.libraries
  let imports ← image.imports data
  return {
    cpu := cpuName image.cpu
    sections := image.sections.map sectionSummary
    libraries
    imports
    exports := image.exports data
    packer := if image.sections.any fun s => s.name == packedSectionName then some "upx" else none }

end Image

def undefinedSymbols (data : Bytes) : Except ImageFault UndefinedSymbols := do
  match ← Content.ofBytes data with
  | .fat => return ⟨true, none⟩
  | .thin image => return ⟨false, ← image.undefinedNames data⟩

/-- The summary of a file, unless it holds several images. -/
def imageSummary (data : Bytes) : Except ImageFault (Option MachOImage) := do
  match ← Content.ofBytes data with
  | .fat => return none
  | .thin image => return some (← image.summary data)

end MachO

end Hallmark
