import Hallmark.Digest.Md5
import Hallmark.Layout
import Hallmark.Pe.OrdinalNames
import Hallmark.Pe.Read
import Hallmark.SortedMap
import Hallmark.Text.LetterCase
import Hallmark.Text.Utf8

/-!
# Import tables

The import directory is a list of descriptors, one for each library, that ends with a descriptor starting with zero.
Each descriptor points to the name of its library and to a list of thunks, which ends with a zero value; a thunk is an
ordinal or points to the name of a function.

The import hash is the MD5 digest of the list of `library.function` tokens in table order.
-/

namespace Hallmark.Pe

/-- Thunks from this value on are ordinals. -/
def ordinalFlag : WordSize → Nat
  | .bits32 => 0x80000000
  | .bits64 => 0x8000000000000000

/-- Ordinals lie below this number; a thunk holds them in its lowest bits. -/
def ordinalRange : WordSize → Nat
  | .bits32 => UInt16.size
  | .bits64 => UInt32.size

/-- The section that holds an import directory, and where in the image both are mapped. -/
structure ImportDirectory where
  bytes : Bytes
  directoryRva : UInt32
  sectionRva : UInt32
  words : WordSize
  deriving Repr, DecidableEq

/-- What a thunk imports: a function by the bytes of its name, or an export by its number. -/
inductive ImportTarget where
  | name (raw : Bytes)
  | ordinal (number : UInt32)
  deriving Repr, DecidableEq

/-- One imported function and the bytes of the name of its library. -/
structure ImportEntry where
  rawLibrary : Bytes
  target : ImportTarget
  deriving Repr, DecidableEq

/-- The text before `ending`, when `cs` ends with it. -/
def stem? (cs ending : List Char) : Option (List Char) :=
  if ending.isSuffixOf cs then some (cs.take (cs.length - ending.length)) else none

/-- The extensions that library names are stripped of. -/
def libraryExtensions : List String := [".ocx", ".sys", ".dll"]

/-- The name of a library in lower case and without its extension. -/
def libraryName (name : String) : String :=
  let lower := LetterCase.lower name
  match libraryExtensions.findSome? fun ending => stem? lower.toList ending.toList with
  | some stem => String.ofList stem
  | none => lower

namespace ImportEntry

/-- The name of the library as it is written in the image. -/
def dllName (e : ImportEntry) : String := Utf8.lossy e.rawLibrary

/-- The name of the library in lower case and without its extension. -/
def library (e : ImportEntry) : String := libraryName e.dllName

/-- The bytes of the name of the function, if it is imported by name. -/
def rawName? (e : ImportEntry) : Option Bytes :=
  match e.target with
  | .name raw => some raw
  | .ordinal _ => none

/-- The name of the function as it is written in the image, if it is imported by name. -/
def name? (e : ImportEntry) : Option String := e.rawName?.map Utf8.lossy

/-- The number of the function, if it is imported by number. -/
def ordinal? (e : ImportEntry) : Option UInt32 :=
  match e.target with
  | .name _ => none
  | .ordinal number => some number

/-- The name of the function in lower case. -/
def function (e : ImportEntry) : String :=
  match e.target with
  | .name raw => LetterCase.lower (Utf8.lossy raw)
  | .ordinal number => LetterCase.lower (ordinalName e.library number)

/-- The entry as it enters the import hash. -/
def token (e : ImportEntry) : String := e.library ++ "." ++ e.function

end ImportEntry

namespace ImportDirectory

/-- What a thunk that is not zero imports.  A function name follows a hint of two bytes. -/
def target (dir : ImportDirectory) (thunk : Nat) : Except Error ImportTarget :=
  if ordinalFlag dir.words ≤ thunk then
    .ok (.ordinal (UInt32.ofNat (thunk % ordinalRange dir.words)))
  else do
    let hint ← rvaOffset (UInt32.ofNat (thunk % UInt32.size)) dir.sectionRva
    let raw ← cstring dir.bytes (hint + 2)
    return .name raw

def pointer (dir : ImportDirectory) (offset : Nat) : Except Error Nat :=
  checked dir.bytes offset dir.words.octets (Bytes.nat? dir.bytes .little dir.words.octets offset)

/-- A walk over the table that collects entries and keeps those it has when it fails. -/
abbrev Walk := EStateM Error (Array ImportEntry)

/-- Collects the thunks from `offset` up to a zero value or the end of the section. -/
def walkThunks (dir : ImportDirectory) (limit : Nat) (library : Bytes) (offset : Nat) : Walk Unit := do
  if offset < dir.bytes.size then
    let thunk ← ofExcept (dir.pointer offset)
    if thunk ≠ 0 then
      let target ← ofExcept (dir.target thunk)
      if limit ≤ (← get).size then
        throw (.limitExceeded .importEntries)
      modify (·.push ⟨library, target⟩)
      walkThunks dir limit library (offset + dir.words.octets)
termination_by dir.bytes.size - offset
decreasing_by
  have := dir.words.octets_pos
  omega

def descriptorSize : Nat := 20

/-- Collects the thunks of the descriptors from `offset` on.  The table ends with a descriptor that starts with zero
or is cut off by the end of the section. -/
def walkDescriptors (dir : ImportDirectory) (limit : Nat) (offset : Nat) : Walk Unit := do
  if offset + descriptorSize ≤ dir.bytes.size then
    let lookup ← ofExcept (u32 dir.bytes offset)
    if lookup ≠ 0 then
      let name ← ofExcept (u32 dir.bytes (offset + 12))
      let library ← ofExcept (do cstring dir.bytes (← rvaOffset name dir.sectionRva))
      let thunks ← ofExcept (rvaOffset lookup dir.sectionRva)
      walkThunks dir limit library thunks
      walkDescriptors dir limit (offset + descriptorSize)
termination_by dir.bytes.size - offset
decreasing_by
  simp only [descriptorSize] at *
  omega

def walk (dir : ImportDirectory) (limit : Nat) : Walk Unit := do
  let offset ← ofExcept (rvaOffset dir.directoryRva dir.sectionRva)
  if dir.bytes.size < offset then
    throw (.invalidOffset offset)
  walkDescriptors dir limit offset

/-- The entries of the table in table order. -/
def entries (dir : ImportDirectory) (options : Options) : Except Error (List ImportEntry) :=
  match (dir.walk options.maxImports.toNat).run #[] with
  | .ok () collected => .ok collected.toList
  | .error e _ => .error e

end ImportDirectory

/-- The import hash, and the names that each library is asked for. -/
structure ImportHash where
  imphash : String
  imports : SortedMap String (List String)

namespace ImportHash

def input (entries : List ImportEntry) : String :=
  ",".intercalate (entries.map ImportEntry.token)

/-- The names imported from each library, in table order, under the library's file name in lower case. -/
def nameMap (entries : List ImportEntry) : SortedMap String (List String) :=
  entries.foldl
    (fun names e =>
      match e.name? with
      | some name => names.alter (LetterCase.lower e.dllName) fun before => before.getD [] ++ [name]
      | none => names)
    .empty

/-- The hash of a list of entries. -/
def ofEntries (entries : List ImportEntry) : ImportHash where
  imphash := Digest.md5 (Bytes.ofString (input entries))
  imports := nameMap entries

/-- The hash of an import directory; an image without one has the hash of no entries. -/
def ofDirectory (dir : Option ImportDirectory) (options : Options) : Except Error ImportHash :=
  match dir with
  | none => .ok (ofEntries [])
  | some dir => (dir.entries options).map ofEntries

end ImportHash

end Hallmark.Pe
