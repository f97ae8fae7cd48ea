import Hallmark.Pe.ImportTable
import Hallmark.Proofs.StatefulRuns
import Hallmark.Proofs.TableLoops
import Hallmark.Proofs.TerminatedTexts

/-!
# The grammar of import tables

What a section has to hold at a place for it to be the place of a name, of a thunk or of a
descriptor, and the ways in which it can fail to be one. Tables and names may overlap, and a table
may begin behind the end of the section.
-/

namespace Hallmark.Proofs
open Pe

section Grammar
variable (dir : ImportDirectory)

/-- The distance of an address from the start of the section. -/
def place (rva : UInt32) : Nat := rva.toNat - dir.sectionRva.toNat

/-- The text stands `skip` octets behind the address. -/
structure NamedAt (rva : UInt32) (skip : Nat) (text : Bytes) : Prop where
  above : dir.sectionRva ≤ rva
  standing : TextAt dir.bytes (place dir rva + skip) text

/-- No text stands `skip` octets behind the address. -/
inductive NameFault (rva : UInt32) (skip : Nat) : Error → Prop
  | below (h : rva < dir.sectionRva) : NameFault rva skip (.invalidRva rva)
  | outside (habove : dir.sectionRva ≤ rva) (h : dir.bytes.size ≤ place dir rva + skip) :
      NameFault rva skip (.invalidOffset (place dir rva + skip))
  | unended (habove : dir.sectionRva ≤ rva) (hin : place dir rva + skip < dir.bytes.size)
      (h : ∀ i, place dir rva + skip ≤ i → dir.bytes[i]? ≠ some 0) :
      NameFault rva skip (.invalidString (place dir rva + skip))

/-! ## Thunks -/

def ordinalBit : Nat := 8 * dir.words.octets - 1

/-- A thunk with the highest bit set holds an ordinal; the low 32 bits of any other are the address
of a hint of two octets with the name behind it. -/
inductive Means (thunk : Nat) : ImportTarget → Prop
  | ordinal (h : thunk.testBit (ordinalBit dir)) :
      Means thunk (.ordinal (UInt32.ofNat (thunk % ordinalRange dir.words)))
  | name {raw : Bytes} (hbit : ¬thunk.testBit (ordinalBit dir))
      (h : NamedAt dir (UInt32.ofNat thunk) 2 raw) : Means thunk (.name raw)

def thunk? (offset : Nat) : Option Nat :=
  Bytes.nat? dir.bytes .little dir.words.octets offset

def ThunkAt (offset : Nat) (target : ImportTarget) : Prop :=
  ∃ thunk, thunk? dir offset = some thunk ∧ thunk ≠ 0 ∧ Means dir thunk target

/-- Thunks end with a zero value, or where the section does. -/
def ThunksEnd (offset : Nat) : Prop :=
  dir.bytes.size ≤ offset ∨ thunk? dir offset = some 0

/-- What can be wrong at the place of a thunk when there are `count` entries already. -/
inductive ThunkFault (limit count offset : Nat) : Error → Prop
  | cutOff (hin : offset < dir.bytes.size) (h : dir.bytes.size < offset + dir.words.octets) :
      ThunkFault limit count offset
        (.truncated offset dir.words.octets (dir.bytes.size - offset))
  | name {thunk : Nat} {e : Error} (hthunk : thunk? dir offset = some thunk) (hne : thunk ≠ 0)
      (hbit : ¬thunk.testBit (ordinalBit dir)) (h : NameFault dir (UInt32.ofNat thunk) 2 e) :
      ThunkFault limit count offset e
  | limit {target : ImportTarget} (hthunk : ThunkAt dir offset target) (h : limit ≤ count) :
      ThunkFault limit count offset (.limitExceeded .importEntries)

/-! ## Descriptors -/

structure ThunksAt (offset : Nat) (targets : List ImportTarget) : Prop where
  thunks : Strided (ThunkAt dir) dir.words.octets offset targets
  thunksEnd : ThunksEnd dir (offset + dir.words.octets * targets.length)

/-- A slot that fits in the section and does not start with zero. -/
structure SlotAt (offset : Nat) (lookup name : UInt32) : Prop where
  inside : offset + 20 ≤ dir.bytes.size
  lookupRva : Bytes.u32? dir.bytes offset = some lookup
  used : lookup ≠ 0
  nameRva : Bytes.u32? dir.bytes (offset + 12) = some name

/-- What a descriptor says: a library, and what is imported from it. -/
structure LibraryImports where
  library : Bytes
  targets : List ImportTarget

def LibraryImports.entries (l : LibraryImports) : List ImportEntry :=
  l.targets.map (⟨l.library, ·⟩)

lemma length_entries (l : LibraryImports) : l.entries.length = l.targets.length :=
  List.length_map _

/-- A descriptor, the name that it points to, and its thunks. -/
def DescriptorAt (offset : Nat) (l : LibraryImports) : Prop :=
  ∃ lookup name, SlotAt dir offset lookup name ∧ NamedAt dir name 0 l.library ∧
    dir.sectionRva ≤ lookup ∧ ThunksAt dir (place dir lookup) l.targets

def DescriptorsEnd (offset : Nat) : Prop :=
  dir.bytes.size < offset + 20 ∨ Bytes.u32? dir.bytes offset = some 0

/-- What can be wrong at the place of a descriptor when there are `count` entries already, with the
entries of the thunks in front of the fault. -/
inductive DescriptorFault (limit count offset : Nat) : List ImportEntry → Error → Prop
  | library {lookup name : UInt32} {e : Error} (hslot : SlotAt dir offset lookup name)
      (h : NameFault dir name 0 e) : DescriptorFault limit count offset [] e
  | lookup {lookup name : UInt32} {library : Bytes} (hslot : SlotAt dir offset lookup name)
      (hlibrary : NamedAt dir name 0 library) (h : lookup < dir.sectionRva) :
      DescriptorFault limit count offset [] (.invalidRva lookup)
  | thunk {lookup name : UInt32} {l : LibraryImports} {e : Error}
      (hslot : SlotAt dir offset lookup name) (hlibrary : NamedAt dir name 0 l.library)
      (habove : dir.sectionRva ≤ lookup)
      (hthunks : Strided (ThunkAt dir) dir.words.octets (place dir lookup) l.targets)
      (hlimit : count + l.targets.length ≤ limit)
      (h : ThunkFault dir limit (count + l.targets.length)
        (place dir lookup + dir.words.octets * l.targets.length) e) :
      DescriptorFault limit count offset l.entries e

/-! ## Tables -/

/-- The entries of a table, descriptor by descriptor and thunk by thunk. -/
def tableEntries (ls : List LibraryImports) : List ImportEntry := ls.flatMap LibraryImports.entries

structure ImportTable (ls : List LibraryImports) : Prop where
  above : dir.sectionRva ≤ dir.directoryRva
  inside : place dir dir.directoryRva ≤ dir.bytes.size
  descriptors : Strided (DescriptorAt dir) 20 (place dir dir.directoryRva) ls
  descriptorsEnd : DescriptorsEnd dir (place dir dir.directoryRva + 20 * ls.length)

/-- The first thing that is wrong with a table. -/
inductive TableFault (limit : Nat) : Error → Prop
  | below (h : dir.directoryRva < dir.sectionRva) : TableFault limit (.invalidRva dir.directoryRva)
  | outside (habove : dir.sectionRva ≤ dir.directoryRva)
      (h : dir.bytes.size < place dir dir.directoryRva) :
      TableFault limit (.invalidOffset (place dir dir.directoryRva))
  | descriptor {ls : List LibraryImports} {found : List ImportEntry} {e : Error}
      (habove : dir.sectionRva ≤ dir.directoryRva)
      (hinside : place dir dir.directoryRva ≤ dir.bytes.size)
      (hdescriptors : Strided (DescriptorAt dir) 20 (place dir dir.directoryRva) ls)
      (hlimit : (tableEntries ls).length ≤ limit)
      (h : DescriptorFault dir limit (tableEntries ls).length
        (place dir dir.directoryRva + 20 * ls.length) found e) : TableFault limit e

end Grammar

/-! ## Names -/

section Names
variable {dir : ImportDirectory} {rva : UInt32} {skip : Nat} {text : Bytes} {e : Error}

/-- The read of a name that is `skip` octets behind an address. -/
def readName (dir : ImportDirectory) (rva : UInt32) (skip : Nat) : Except Error Bytes :=
  rvaOffset rva dir.sectionRva >>= fun offset => cstring dir.bytes (offset + skip)

lemma readName_ok : readName dir rva skip = .ok text ↔ NamedAt dir rva skip text := by
  rw [readName, bind_ok]
  constructor
  · rintro ⟨offset, hoffset, htext⟩
    obtain ⟨habove, rfl⟩ := rvaOffset_ok.mp hoffset
    exact ⟨habove, cstring_ok.mp htext⟩
  · rintro ⟨habove, htext⟩
    exact ⟨_, rvaOffset_ok.mpr ⟨habove, rfl⟩, cstring_ok.mpr htext⟩

lemma readName_error : readName dir rva skip = .error e ↔ NameFault dir rva skip e := by
  rw [readName, bind_error]
  constructor
  · rintro (hbelow | ⟨offset, hoffset, htext⟩)
    · obtain ⟨hlow, rfl⟩ := rvaOffset_error.mp hbelow
      exact .below hlow
    · obtain ⟨habove, rfl⟩ := rvaOffset_ok.mp hoffset
      obtain ⟨hout, rfl⟩ | ⟨hin, hnone, rfl⟩ := cstring_error.mp htext
      · exact .outside habove hout
      · exact .unended habove hin hnone
  · intro h
    cases h with
    | below h => exact .inl (rvaOffset_error.mpr ⟨h, rfl⟩)
    | outside habove h =>
      exact .inr ⟨_, rvaOffset_ok.mpr ⟨habove, rfl⟩, cstring_error.mpr (.inl ⟨h, rfl⟩)⟩
    | unended habove hin h =>
      exact .inr ⟨_, rvaOffset_ok.mpr ⟨habove, rfl⟩, cstring_error.mpr (.inr ⟨hin, h, rfl⟩)⟩

end Names

/-! ## Values of thunks -/

section Thunks
variable {dir : ImportDirectory} {offset thunk : Nat} {target : ImportTarget} {e : Error}

lemma testBit_top {n i : Nat} (hn : n < 2 ^ (i + 1)) : n.testBit i ↔ 2 ^ i ≤ n := by
  constructor
  · exact Nat.ge_two_pow_of_testBit
  · intro h
    exact Nat.testBit_of_two_pow_le_and_two_pow_add_one_gt h hn

lemma ordinalFlag_le (h : thunk < 256 ^ dir.words.octets) :
    ordinalFlag dir.words ≤ thunk ↔ thunk.testBit (ordinalBit dir) := by
  unfold ordinalBit
  cases hwords : dir.words with
  | bits32 =>
    rw [hwords] at h
    exact (testBit_top (i := 31) h).symm
  | bits64 =>
    rw [hwords] at h
    exact (testBit_top (i := 63) h).symm

/-- The meaning of a thunk is read as the name behind its low 32 bits, or from its own bits. -/
lemma target_eq (h : thunk < 256 ^ dir.words.octets) :
    dir.target thunk =
      if thunk.testBit (ordinalBit dir) then
        .ok (.ordinal (UInt32.ofNat (thunk % ordinalRange dir.words)))
      else readName dir (UInt32.ofNat thunk) 2 >>= fun raw => .ok (.name raw) := by
  have hlow : UInt32.ofNat (thunk % UInt32.size) = UInt32.ofNat thunk := by
    rw [← UInt32.toNat_inj, UInt32.toNat_ofNat', UInt32.toNat_ofNat']
    exact Nat.mod_mod _ _
  rw [ImportDirectory.target, hlow]
  by_cases hbit : thunk.testBit (ordinalBit dir)
  · rw [if_pos ((ordinalFlag_le h).mpr hbit), if_pos hbit]
  · rw [if_neg (fun hle => hbit ((ordinalFlag_le h).mp hle)), if_neg hbit, readName, bind_assoc]
    rfl

lemma target_ok (h : thunk < 256 ^ dir.words.octets) :
    dir.target thunk = .ok target ↔ Means dir thunk target := by
  rw [target_eq h]
  by_cases hbit : thunk.testBit (ordinalBit dir)
  · rw [if_pos hbit]
    constructor
    · intro heq
      cases heq
      exact .ordinal hbit
    · intro hmeans
      cases hmeans with
      | ordinal => rfl
      | name hnot => exact absurd hbit hnot
  · rw [if_neg hbit, bind_ok]
    constructor
    · rintro ⟨raw, hraw, heq⟩
      cases heq
      exact .name hbit (readName_ok.mp hraw)
    · intro hmeans
      cases hmeans with
      | ordinal hset => exact absurd hset hbit
      | name _ hname => exact ⟨_, readName_ok.mpr hname, rfl⟩

lemma target_error (h : thunk < 256 ^ dir.words.octets) :
    dir.target thunk = .error e ↔
      ¬thunk.testBit (ordinalBit dir) ∧ NameFault dir (UInt32.ofNat thunk) 2 e := by
  rw [target_eq h]
  by_cases hbit : thunk.testBit (ordinalBit dir)
  · simp [hbit]
  · rw [if_neg hbit, bind_error, readName_error]
    simp [hbit]

end Thunks
end Hallmark.Proofs
