import Hallmark.Elf.Image
import Hallmark.MachO.Image
import Hallmark.Pe.Image
import Hallmark.Symbol.Basic

/-!
# Symbols of ELF images
-/

namespace Hallmark.Elf

/-- The name at `offset` of a string table. -/
def nameAt (data : Bytes) (strings : Option (Nat × Nat)) (offset : Nat) : Except ImageFault Bytes :=
  let name := do
    let (start, stop) ← strings
    if stop ≤ data.size then Bytes.cstring? data (start + offset) stop else none
  match name with
  | some bytes => .ok bytes
  | none => .error .elfSymbolName

def symbolOf (l : Layout) (data : Bytes) (strings : Option (Nat × Nat)) (origin : SymbolOrigin) (record : Bytes) :
    Except ImageFault Symbol := do
  let name ← nameAt data strings (l.word record 0)
  let place := l.pick 12 4
  return .ofOctets (Utf8.lossy name) (record.getD place 0) (record.getD (place + 1) 0) origin

/-- The symbols of a table but the first, which is a placeholder. -/
def symbolsOf (l : Layout) (data : Bytes) (table : SymbolTable) (origin : SymbolOrigin) :
    Except ImageFault (List Symbol) :=
  (table.records.drop 1).mapM (symbolOf l data table.strings origin)

def Image.symbolTables (image : Image) (data : Bytes) : Except ImageFault SymbolTables := do
  let dynamic ← symbolsOf image.layout data image.dynamic .dynamic
  let static ← symbolsOf image.layout data image.static .static
  return ⟨dynamic, static⟩

/-- The symbol tables of a file.  An image of another format is read first, and a fault in it is reported before the
format is refused. -/
def symbolTables (data : Bytes) : Except ImageFault SymbolTables := do
  match ← FileKind.ofBytes data with
  | .elf words => (← Image.ofBytes words data).symbolTables data
  | .pe words =>
    let _ ← Pe.Image.ofBytes words data
    throw .notElf
  | .machO words =>
    let _ ← MachO.Image.ofBytes words data
    throw .notElf
  | .coff | .xcoff => throw .notElf
  | .machOFat | .archive | .sharedCache | .importObject => throw .formatUnsupported

end Hallmark.Elf
