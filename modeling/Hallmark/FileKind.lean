import Hallmark.ImageFault
import Hallmark.Layout

/-!
# File formats

The format of an executable or object file by its first bytes.
-/

namespace Hallmark

/-- The formats that the first bytes of a file tell apart. -/
inductive FileKind where
  | pe (words : WordSize)
  | elf (words : WordSize)
  | machO (words : WordSize)
  /-- Several Mach-O images for different processors. -/
  | machOFat
  | archive
  | sharedCache
  | coff
  | importObject
  | xcoff
  deriving Repr, DecidableEq

namespace FileKind

/-- The place of the headers of a PE image, from the DOS header in front of it. -/
def peOffset? (data : Bytes) : Option Nat :=
  if 64 ≤ data.size then Bytes.nat? data .little 4 0x3c else none

/-- The width of a PE image, when its headers are there. -/
def peWords? (data : Bytes) : Option WordSize := do
  let place ← peOffset? data
  let headers ← Bytes.slice? data place 120
  if !Bytes.hasAt headers 0 #[0x50, 0x45, 0x00, 0x00] then none
  match ← Bytes.nat? headers .little 2 24 with
  | 0x10b => some .bits32
  | 0x20b => some .bits64
  | _ => none

/-- The formats that are told by a magic number alone. -/
def magics : List (List UInt8 × FileKind) := [
  ([0x21, 0x3c, 0x61, 0x72, 0x63, 0x68, 0x3e, 0x0a], archive),
  ([0x21, 0x3c, 0x74, 0x68, 0x69, 0x6e, 0x3e, 0x0a], archive),
  ([0x64, 0x79, 0x6c, 0x64, 0x5f, 0x76, 0x31, 0x20], sharedCache),
  ([0x7f, 0x45, 0x4c, 0x46, 0x01], elf .bits32),
  ([0x7f, 0x45, 0x4c, 0x46, 0x02], elf .bits64),
  ([0xfe, 0xed, 0xfa, 0xce], machO .bits32),
  ([0xce, 0xfa, 0xed, 0xfe], machO .bits32),
  ([0xfe, 0xed, 0xfa, 0xcf], machO .bits64),
  ([0xcf, 0xfa, 0xed, 0xfe], machO .bits64),
  ([0xca, 0xfe, 0xba, 0xbe], machOFat),
  ([0xca, 0xfe, 0xba, 0xbf], machOFat),
  ([0xc4, 0x01], coff), ([0x64, 0xaa], coff), ([0x41, 0xa6], coff), ([0xf0, 0x01], coff),
  ([0xf1, 0x01], coff), ([0xf2, 0x01], coff), ([0x4c, 0x01], coff), ([0x64, 0x86], coff),
  ([0x00, 0x00, 0xff, 0xff, 0x00, 0x00], importObject),
  ([0x01, 0xdf], xcoff), ([0x01, 0xf7], xcoff)]

def ofBytes (data : Bytes) : Except ImageFault FileKind :=
  if data.size < 16 then .error .magicMissing
  else
    match magics.find? fun magic => Bytes.hasAt data 0 magic.1.toArray with
    | some magic => .ok magic.2
    | none =>
      if Bytes.hasAt data 0 #[0x4d, 0x5a] then
        match peWords? data with
        | some words => .ok (pe words)
        | none => .error .dosUnknown
      else if Bytes.hasAt data 0 #[0x00, 0x00, 0xff, 0xff, 0x02, 0x00] then .error .anonymousObject
      else .error .magicUnknown

end FileKind

/-- The executable formats that are fingerprinted. -/
inductive ContainerKind where
  | pe
  | elf
  | machO
  | machOFat
  | other
  deriving Repr, DecidableEq

namespace ContainerKind

/-- The format of a file; anything that cannot be read is `other`. -/
def detect (data : Bytes) : ContainerKind :=
  match FileKind.ofBytes data with
  | .ok (.pe _) => pe
  | .ok (.elf _) => elf
  | .ok (.machO _) => machO
  | .ok .machOFat => machOFat
  | _ => other

/-- True for single and for several Mach-O images. -/
def isMachO (kind : ContainerKind) : Bool := kind = machO || kind = machOFat

/-- The name of the format in reports. -/
def name : ContainerKind → String
  | pe => "Pe"
  | elf => "Elf"
  | machO => "MachO"
  | machOFat => "MachOFat"
  | other => "Other"

def all : List ContainerKind := [pe, elf, machO, machOFat, other]

end ContainerKind

end Hallmark
