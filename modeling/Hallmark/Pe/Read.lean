import Hallmark.Bytes
import Hallmark.ImageFault

/-!
# Checked reads

Reads from the bytes of a PE section.  A read that needs more bytes than there are says where it stood, what it
needed and what was left, and a parse stops at its limits.
-/

namespace Hallmark.Pe

/-- How much of a PE image the parsers will follow, and whether resources get a content type. -/
structure Options where
  maxImports : UInt64 := 10000
  maxResources : UInt64 := 10000
  maxResourceEntries : UInt64 := 100000
  sniffResources : Bool := true
  deriving Repr, DecidableEq

/-- The limits that a parse may reach. -/
inductive Limit where
  | importEntries
  | resourceLeaves
  | resourceEntries
  deriving Repr, DecidableEq

/-- Why a structure of a PE image could not be read. -/
inductive Error where
  | invalidRva (rva : UInt32)
  | invalidOffset (offset : Nat)
  | truncated (offset needed available : Nat)
  | invalidString (offset : Nat)
  /-- An entry for data in a directory of types or of names. -/
  | dataAboveLanguageLevel
  | resourceDepthExceeded
  | limitExceeded (limit : Limit)
  | image (fault : ImageFault)
  deriving Repr, DecidableEq

def Limit.text : Limit → String
  | .importEntries => "import entries"
  | .resourceLeaves => "resource leaves"
  | .resourceEntries => "resource directory entries"

def hexText (n : Nat) : String := String.ofList (Nat.toDigits 16 n)

def Error.message : Error → String
  | .invalidRva rva =>
    let digits := Nat.toDigits 16 rva.toNat
    "Invalid RVA: 0x" ++ String.ofList (List.replicate (8 - digits.length) '0' ++ digits)
  | .invalidOffset offset => "Invalid offset: 0x" ++ hexText offset
  | .truncated offset needed available =>
    "Truncated structure at 0x" ++ hexText offset ++ ": need " ++ toString needed ++ " bytes, "
      ++ toString available ++ " available"
  | .invalidString offset => "Invalid string at offset 0x" ++ hexText offset
  | .dataAboveLanguageLevel => "Malformed resource directory: data entry above the language level"
  | .resourceDepthExceeded => "Resource directory depth exceeded"
  | .limitExceeded limit => "Limit exceeded: " ++ limit.text
  | .image fault => "Container parse error: " ++ fault.message

/-- The result of a read that needs `needed` bytes at `offset`. -/
def checked {α : Type} (data : Bytes) (offset needed : Nat) : Option α → Except Error α
  | some value => .ok value
  | none => .error (.truncated offset needed (data.size - offset))

def u16 (data : Bytes) (offset : Nat) : Except Error UInt16 :=
  checked data offset 2 (Bytes.u16? data offset)

def u32 (data : Bytes) (offset : Nat) : Except Error UInt32 :=
  checked data offset 4 (Bytes.u32? data offset)

def u64 (data : Bytes) (offset : Nat) : Except Error UInt64 :=
  checked data offset 8 (Bytes.u64? data offset)

def slice (data : Bytes) (offset len : Nat) : Except Error Bytes :=
  checked data offset len (Bytes.slice? data offset len)

/-- The bytes from `offset` up to the next zero byte. -/
def cstring (data : Bytes) (offset : Nat) : Except Error Bytes :=
  if data.size ≤ offset then .error (.invalidOffset offset)
  else
    match Bytes.cstring? data offset data.size with
    | some bytes => .ok bytes
    | none => .error (.invalidString offset)

/-- The place of a relative virtual address in bytes that are mapped at `base`. -/
def rvaOffset (rva base : UInt32) : Except Error Nat :=
  if base ≤ rva then .ok (rva.toNat - base.toNat) else .error (.invalidRva rva)

/-- True when the highest of the 32 bits is set. -/
def hasHighBit (word : UInt32) : Bool := 0x80000000 ≤ word

/-- The value of the other 31 bits. -/
def lowBits (word : UInt32) : Nat := word.toNat % 0x80000000

end Hallmark.Pe
