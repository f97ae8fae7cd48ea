import Hallmark.Pe.ResourceTree

/-!
# Version strings

A version resource holds, among other blocks, a block of string tables.  Every block starts with its length, the
length of its value, its kind and its key; blocks follow each other, with zeros between them.
-/

namespace Hallmark.Pe

/-- A named text of a version resource. -/
structure VersionEntry where
  name : String
  value : String
  deriving Repr, DecidableEq

namespace VersionStrings

/-- The key of the block of string tables, without its terminator. -/
def marker : Bytes := Utf16.octets (Utf16.encode "StringFileInfo")

/-- The lengths and the kind that a block starts with. -/
def blockHeader : Nat := 6

/-- The header of a string table and its key of eight digits with a terminator. -/
def tableHeader : Nat := 24

/-- The kind of blocks whose value is text. -/
def textKind : UInt16 := 1

/-- The blocks that follow each other from `offset` on.  A length of zero stands for two bytes of padding, and a block
that is longer than what is left ends where the data ends. -/
def blocks (data : Bytes) (offset : Nat) : List Bytes :=
  match _h : Bytes.u16? data offset with
  | none => []
  | some length =>
    if length = 0 then blocks data (offset + 2)
    else data.extract offset (offset + length.toNat) :: blocks data (offset + length.toNat)
termination_by data.size - offset
decreasing_by
  all_goals
    have inside : offset + 2 ≤ data.size := by
      refine Decidable.byContradiction fun outside => ?_
      simp [Bytes.u16?, Bytes.nat?, Bytes.slice?, outside] at _h
  · omega
  · next nonzero =>
    have : 0 < length.toNat := by
      refine Nat.pos_of_ne_zero fun zero => nonzero ?_
      exact UInt16.toNat_inj.1 zero
    omega

/-- The name and the value of a string block; none when it is not text or its value is empty. -/
def entry? (block : Bytes) : Option VersionEntry := do
  let kind ← Bytes.u16? block 4
  if kind ≠ textKind then none
  let key ← Bytes.from? block blockHeader
  let units := Utf16.unitsBeforeNul key
  let value ← Bytes.from? block (align4 (blockHeader + 2 * units.length + 2))
  let text := Utf16.textBeforeNul value
  if text = "" then none
  return ⟨String.ofList (Utf16.decode units), text⟩

/-- The entries of a run of string tables. -/
def ofTables (data : Bytes) : List VersionEntry :=
  (blocks data 0).flatMap fun table =>
    (blocks (table.extract tableHeader table.size) 0).filterMap entry?

/-- The entries of a version resource.  The string tables end with their block if its header is there and states a
length that goes beyond the key, and with the data otherwise. -/
def ofResource (data : Bytes) : List VersionEntry :=
  match Bytes.find? data marker 0 with
  | none => []
  | some place =>
    let keyEnd := place + marker.size + 2
    let (start, stop) :=
      if blockHeader ≤ place then
        let block := place - blockHeader
        let length := ((Bytes.u16? data block).getD 0).toNat
        (block + align4 (keyEnd - block),
          if keyEnd - block < length then min (block + length) data.size else data.size)
      else (align4 keyEnd, data.size)
    if start ≤ stop then ofTables (data.extract start stop) else []

def resourceType : String := "RT_VERSION"

/-- The entries of the first version resource. -/
def ofLeaves (leaves : List ResourceLeaf) : List VersionEntry :=
  match leaves.find? fun leaf => leaf.typeLabel == resourceType with
  | some leaf => ofResource leaf.data
  | none => []

end VersionStrings

end Hallmark.Pe
