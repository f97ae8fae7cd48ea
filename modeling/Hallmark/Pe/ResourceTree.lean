import Hallmark.Digest.Sha256
import Hallmark.MediaType
import Hallmark.Pe.Read
import Hallmark.Text.Utf16

/-!
# Resource trees

Resources are kept in a tree of directories on three levels: types, names and languages.  An entry is a selector and a
target, whose highest bit tells a directory from data.  Offsets may point anywhere, also back to a directory that is
being read, so the walk goes down three levels and no further, checks every offset, and counts what it visits.
-/

namespace Hallmark.Pe

/-- The bytes that resource offsets are relative to, and where in the image they are mapped. -/
structure ResourceSection where
  bytes : Bytes
  virtualAddress : UInt32
  deriving Repr, DecidableEq

/-- One resource: its type, its language, and what its bytes are. -/
structure ResourceLeaf where
  typeLabel : String
  language : UInt16
  sha256 : String
  mime : String
  size : UInt64
  data : Bytes
  deriving Repr, DecidableEq

/-- The label of content that no rule recognises. -/
def unknownContent : String := "Data"

/-- The resource types that have a name. -/
def resourceTypeNames : List (UInt32 × String) := [
  (1, "RT_CURSOR"), (2, "RT_BITMAP"), (3, "RT_ICON"), (4, "RT_MENU"), (5, "RT_DIALOG"), (6, "RT_STRING"),
  (7, "RT_FONTDIR"), (8, "RT_FONT"), (9, "RT_ACCELERATOR"), (10, "RT_RCDATA"), (11, "RT_MESSAGETABLE"),
  (12, "RT_GROUP_CURSOR"), (14, "RT_GROUP_ICON"), (16, "RT_VERSION"), (17, "RT_DLGINCLUDE"), (19, "RT_PLUGPLAY"),
  (20, "RT_VXD"), (21, "RT_ANICURSOR"), (22, "RT_ANIICON"), (23, "RT_HTML"), (24, "RT_MANIFEST")]

/-- The name of a numeric resource type, or its decimal digits. -/
def resourceTypeName (id : UInt32) : String :=
  (resourceTypeNames.lookup id).getD (toString id.toNat)

namespace ResourceTree

/-- The size of the header of a directory. -/
def headerSize : Nat := 16

def entrySize : Nat := 8

/-- The size of the record that describes the data of a leaf. -/
def dataEntrySize : Nat := 16

/-- What a walk has done so far: the directories it entered, the entries they hold, and the leaves it read. -/
structure Progress where
  directories : Nat
  entries : Nat
  leaves : Array ResourceLeaf
  deriving Repr, DecidableEq

/-- A walk that has not begun. -/
def Progress.start : Progress := ⟨0, 0, #[]⟩

/-- A walk over the tree, which keeps its progress when it fails. -/
abbrev Walk := EStateM Error Progress

/-- Opens the directory at `offset` and returns the number of its entries, all of which are present. -/
def openDirectory (tree : ResourceSection) (options : Options) (offset : Nat) : Walk Nat := do
  let _ ← ofExcept (slice tree.bytes offset headerSize)
  let named ← ofExcept (u16 tree.bytes (offset + 12))
  let numbered ← ofExcept (u16 tree.bytes (offset + 14))
  let count := named.toNat + numbered.toNat
  let _ ← ofExcept (slice tree.bytes (offset + headerSize) (count * entrySize))
  let progress ← get
  if options.maxResourceEntries.toNat < progress.entries + count then
    throw (.limitExceeded .resourceEntries)
  set { progress with directories := progress.directories + 1, entries := progress.entries + count }
  return count

/-- The label of a type: a name of 16-bit units that are counted in front of it, or a number. -/
def typeLabel (tree : ResourceSection) (selector : UInt32) : Except Error String :=
  if hasHighBit selector then do
    let offset := lowBits selector
    let units ← u16 tree.bytes offset
    let name ← slice tree.bytes (offset + 2) (units.toNat * 2)
    return Utf16.textBeforeNul name
  else
    .ok (resourceTypeName selector)

def contentType (options : Options) (bytes : Bytes) : String :=
  if options.sniffResources then (MediaType.sniff? bytes).getD unknownContent else unknownContent

/-- The leaf whose data record stands at `offset`. -/
def leafAt (tree : ResourceSection) (options : Options) (offset : Nat) (label : String) (language : UInt16) :
    Except Error ResourceLeaf := do
  let _ ← slice tree.bytes offset dataEntrySize
  let rva ← u32 tree.bytes offset
  let size ← u32 tree.bytes (offset + 4)
  let place ← rvaOffset rva tree.virtualAddress
  let data ← slice tree.bytes place size.toNat
  return {
    typeLabel := label
    language
    sha256 := Digest.sha256 data
    mime := contentType options data
    size := size.toUInt64
    data }

/-- Reads the leaf whose data record stands at `offset`, unless there are enough leaves already. -/
def takeLeaf (tree : ResourceSection) (options : Options) (offset : Nat) (label : String) (language : UInt16) :
    Walk Unit := do
  if options.maxResources.toNat ≤ (← get).leaves.size then
    throw (.limitExceeded .resourceLeaves)
  let leaf ← ofExcept (leafAt tree options offset label language)
  modify fun progress => { progress with leaves := progress.leaves.push leaf }

/-- Visits the entry at `place`.  `label` is the type that the directory belongs to, unless its entries are the types;
`descend` walks a directory of the next level, and there is none below the languages. -/
def visit (tree : ResourceSection) (options : Options) (label : Option String)
    (descend : Option (Nat → String → Walk Unit)) (place : Nat) : Walk Unit := do
  let selector ← ofExcept (u32 tree.bytes place)
  let target ← ofExcept (u32 tree.bytes (place + 4))
  let name ← match label with
    | some name => pure name
    | none => ofExcept (typeLabel tree selector)
  match hasHighBit target, descend with
  | true, none => throw .resourceDepthExceeded
  | true, some walk => walk (lowBits target) name
  | false, some _ => throw .dataAboveLanguageLevel
  | false, none => takeLeaf tree options target.toNat name selector.toUInt16

/-- Visits the entries of the directory at `offset`, which has `below` levels under it. -/
def walk (tree : ResourceSection) (options : Options) :
    (below : Nat) → (offset : Nat) → (label : Option String) → Walk Unit
  | 0, offset, label => do
    let count ← openDirectory tree options offset
    (List.range count).forM fun index =>
      visit tree options label none (offset + headerSize + index * entrySize)
  | below + 1, offset, label => do
    let count ← openDirectory tree options offset
    (List.range count).forM fun index =>
      visit tree options label (some fun child name => walk tree options below child (some name))
        (offset + headerSize + index * entrySize)

/-- The directories below the directory of types: names and languages. -/
def levelsBelowRoot : Nat := 2

/-- The leaves of the tree, in the order of the directories. -/
def leaves (tree : ResourceSection) (options : Options) : Except Error (List ResourceLeaf) :=
  match (walk tree options levelsBelowRoot 0 none).run .start with
  | .ok () progress => .ok progress.leaves.toList
  | .error e _ => .error e

end ResourceTree

end Hallmark.Pe
