import Hallmark.Proofs.StoredTrees
import Hallmark.Proofs.Utf16Texts

/-!
# Resource trees that are appended to a buffer

A writer that makes room for the entries of a directory, appends the names, directories and leaves
that they lead to, and fills in each entry as soon as it knows where these stand.
-/

namespace Hallmark.Proofs
open Pe Pe.ResourceTree

/-- What an entry is chosen by. -/
inductive Selector where
  | id (number : UInt32)
  | name (text : String)

/-! ## The writer -/

section Writer
variable {ε : Type} (write : List UInt8 → ε → List UInt8 × DirectoryEntry)

/-- Appends what each entry leads to, and fills in the entry at its slot. -/
def writeEntries : (slot : Nat) → (buffer : List UInt8) → List ε → List UInt8
  | _, buffer, [] => buffer
  | slot, buffer, e :: es =>
    let (longer, words) := write buffer e
    let selected := overwrite longer slot (littleOctets 4 words.selector.toNat)
    writeEntries (slot + 8) (overwrite selected (slot + 4) (littleOctets 4 words.target.toNat)) es

def writeTable (buffer : List UInt8) (entries : List ε) : List UInt8 :=
  let opened := buffer ++ (directoryHeader entries.length ++ zeros (entries.length * 8))
  writeEntries write (buffer.length + 16) opened entries

end Writer

def nameOctets (text : String) : List UInt8 :=
  littleOctets 2 (Utf16.encode text).length ++ (Utf16.octets (Utf16.encode text)).toList

def writeSelector (buffer : List UInt8) : Selector → List UInt8 × UInt32
  | .id number => (buffer, number)
  | .name text => (buffer ++ nameOctets text, flagged buffer.length)

/-- Appends the bytes of a leaf and then its record. -/
def writeLeaf (address : UInt32) (buffer bytes : List UInt8) : List UInt8 × UInt32 :=
  let place := address + UInt32.ofNat buffer.length
  (buffer ++ bytes ++ recordOctets place.toNat bytes.length,
    UInt32.ofNat (buffer ++ bytes).length)

/-- Appends a directory of a section at `address`, and all that is below it. -/
def writeDirectory (address : UInt32) :
    (below : Nat) → List UInt8 → Tree Selector below → List UInt8
  | 0, buffer, entries =>
    writeTable (fun buffer e =>
      let (longer, target) := writeLeaf address buffer e.2
      (longer, ⟨e.1, target⟩)) buffer entries
  | below + 1, buffer, entries =>
    writeTable (fun buffer e =>
      let (named, word) := writeSelector buffer e.1
      (writeDirectory address below named e.2, ⟨word, flagged named.length⟩)) buffer entries

/-! ## The layout -/

/-- What is appended for an entry at a place, and the words that go into its slot. -/
structure EntryLayout (ε : Type) where
  octets : Nat → ε → List UInt8
  words : Nat → ε → DirectoryEntry

namespace EntryLayout
variable {ε : Type} (l : EntryLayout ε)

def contents : (place : Nat) → List ε → List UInt8
  | _, [] => []
  | place, e :: es => l.octets place e ++ contents (place + (l.octets place e).length) es

def table : (place : Nat) → List ε → List UInt8
  | _, [] => []
  | place, e :: es => entryOctets (l.words place e) ++ table (place + (l.octets place e).length) es

/-- The directory at `offset` with all that it leads to. -/
def directory (offset : Nat) (entries : List ε) : List UInt8 :=
  let place := offset + 16 + entries.length * 8
  directoryHeader entries.length ++ (l.table place entries ++ l.contents place entries)

/-- A writer that appends what the layout says. -/
def Describes (write : List UInt8 → ε → List UInt8 × DirectoryEntry) : Prop :=
  ∀ buffer e, write buffer e = (buffer ++ l.octets buffer.length e, l.words buffer.length e)

end EntryLayout

def selectorOctets : Selector → List UInt8
  | .id _ => []
  | .name text => nameOctets text

def selectorWord (place : Nat) : Selector → UInt32
  | .id number => number
  | .name _ => flagged place

def leafLayout (address : UInt32) : EntryLayout (UInt32 × List UInt8) where
  octets place e := e.2 ++ recordOctets (address + UInt32.ofNat place).toNat e.2.length
  words place e := ⟨e.1, UInt32.ofNat (place + e.2.length)⟩

def childLayout {α : Type} (octets : Nat → α → List UInt8) : EntryLayout (Selector × α) where
  octets place e := selectorOctets e.1 ++ octets (place + (selectorOctets e.1).length) e.2
  words place e := ⟨selectorWord place e.1, flagged (place + (selectorOctets e.1).length)⟩

/-- A directory that is written at a place, with all that is below it. -/
def directoryOctets (address : UInt32) : (below : Nat) → Nat → Tree Selector below → List UInt8
  | 0, place, entries => (leafLayout address).directory place entries
  | below + 1, place, entries => (childLayout (directoryOctets address below)).directory place entries

section Writing
variable {ε : Type} {write : List UInt8 → ε → List UInt8 × DirectoryEntry} {l : EntryLayout ε}

/-- The entries fill the room behind `a`, and what they lead to follows the buffer, which ends at
`place`. -/
lemma writeEntries_eq (h : l.Describes write) (es : List ε) (a b : List UInt8) (place : Nat)
    (hplace : place = a.length + es.length * 8 + b.length) :
    writeEntries write a.length (a ++ (zeros (es.length * 8) ++ b)) es =
      a ++ (l.table place es ++ (b ++ l.contents place es)) := by
  induction es generalizing a b place with
  | nil => simp [writeEntries, EntryLayout.table, EntryLayout.contents, zeros]
  | cons e es ih =>
    -- The room loses eight octets to the entry, and the buffer grows by what the entry leads to.
    have hroom : zeros ((e :: es).length * 8) = zeros 8 ++ zeros (es.length * 8) :=
      zeros_succ_mul es.length 8
    have hlength : (a ++ (zeros ((e :: es).length * 8) ++ b)).length = place := by
      rw [List.length_append, List.length_append, length_zeros, hplace, Nat.add_assoc]
    have hlonger : a ++ (zeros ((e :: es).length * 8) ++ b) ++ l.octets place e =
        a ++ (zeros 8 ++ (zeros (es.length * 8) ++ (b ++ l.octets place e))) := by
      rw [hroom]
      simp only [List.append_assoc]
    have hslot : a.length + 8 = (a ++ entryOctets (l.words place e)).length := by
      rw [List.length_append, length_entryOctets]
    rw [writeEntries, h, hlength]
    simp only [hlonger, overwrite_entry]
    rw [← List.append_assoc a, hslot, ih _ _ (place + (l.octets place e).length)]
    · simp only [EntryLayout.table, EntryLayout.contents, List.append_assoc]
    · rw [← hslot, List.length_append, hplace, List.length_cons]
      omega

lemma writeTable_eq (h : l.Describes write) (buffer : List UInt8) (entries : List ε) :
    writeTable write buffer entries = buffer ++ l.directory buffer.length entries := by
  have hslot : buffer.length + 16 = (buffer ++ directoryHeader entries.length).length := by
    rw [List.length_append, length_directoryHeader]
  have hplace : buffer.length + 16 + entries.length * 8 =
      (buffer ++ directoryHeader entries.length).length + entries.length * 8 +
        ([] : List UInt8).length := by
    rw [← hslot]
    rfl
  have hfilled := writeEntries_eq h entries _ [] _ hplace
  rw [List.append_nil, List.nil_append, ← hslot, List.append_assoc, List.append_assoc] at hfilled
  exact hfilled

end Writing

/-- What is written of a tree is its layout at the end of the buffer. -/
theorem writeDirectory_eq (address : UInt32) (below : Nat) (buffer : List UInt8)
    (entries : Tree Selector below) :
    writeDirectory address below buffer entries =
      buffer ++ directoryOctets address below buffer.length entries := by
  induction below generalizing buffer with
  | zero =>
    refine writeTable_eq (fun buffer e => ?_) buffer entries
    simp [writeLeaf, leafLayout]
  | succ below ih =>
    refine writeTable_eq (fun buffer e => ?_) buffer entries
    obtain ⟨s, child⟩ := e
    cases s <;> simp [writeSelector, childLayout, selectorOctets, selectorWord, ih]

/-! ## What is stored -/

/-- A number selects itself, and a name is selected by the place where it stands. -/
def SelectedBy (tree : ResourceSection) : Selector → UInt32 → Prop
  | .id number, word => word = number
  | .name text, word => hasHighBit word ∧ Placed tree.bytes (lowBits word) (nameOctets text)

section Stored
variable {tree : ResourceSection} {offset : Nat}

variable {ε : Type} {l : EntryLayout ε}

lemma EntryLayout.length_table (place : Nat) (es : List ε) :
    (l.table place es).length = es.length * 8 := by
  induction es generalizing place with
  | nil => rfl
  | cons e es ih =>
    rw [EntryLayout.table, List.length_append, length_entryOctets, ih, List.length_cons,
      Nat.succ_mul, Nat.add_comm]

/-- Each entry stands in its slot, and what it leads to stands where the entry says. -/
lemma EntryLayout.entries_placed {es : List ε} {slot place : Nat}
    (htable : Placed tree.bytes slot (l.table place es))
    (hcontents : Placed tree.bytes place (l.contents place es)) {i : Nat} {e : ε}
    (he : es[i]? = some e) :
    ∃ q, WordsAt tree (slot + i * 8) (l.words q e) ∧ Placed tree.bytes q (l.octets q e) := by
  induction es generalizing slot place i with
  | nil => simp at he
  | cons d es ih =>
    cases i with
    | zero =>
      obtain rfl : d = e := by simpa using he
      rw [Nat.zero_mul, Nat.add_zero]
      exact ⟨place, htable.left, hcontents.left⟩
    | succ i =>
      have hnext := htable.right
      rw [length_entryOctets] at hnext
      rw [Nat.succ_mul, Nat.add_comm (i * 8), ← Nat.add_assoc]
      exact ih hnext hcontents.right he

lemma EntryLayout.directory_placed {es : List ε} (hcount : es.length < 2 ^ 16)
    (h : Placed tree.bytes offset (l.directory offset es)) :
    DirectoryAt tree offset es.length ∧ ∀ i e, es[i]? = some e →
      ∃ q, WordsAt tree (offset + 16 + i * 8) (l.words q e) ∧ Placed tree.bytes q (l.octets q e) := by
  rw [EntryLayout.directory, ← List.append_assoc] at h
  have hcontents := h.right
  rw [List.length_append, length_directoryHeader, l.length_table, ← Nat.add_assoc] at hcontents
  refine ⟨directoryAt_of_placed hcount (l.length_table _ _) h.left, fun i e he => ?_⟩
  exact EntryLayout.entries_placed h.left.right hcontents he

lemma selectedBy_of_placed (hsize : tree.bytes.size < 2 ^ 31) {s : Selector} {q : Nat}
    (h : Placed tree.bytes q (selectorOctets s)) : SelectedBy tree s (selectorWord q s) := by
  have hend := h.le_size
  cases s with
  | id number => rfl
  | name text =>
    have hplace : q < 2 ^ 31 := by omega
    refine ⟨hasHighBit_flagged hplace, ?_⟩
    rw [selectorWord, lowBits_flagged hplace]
    exact h

/-- A directory that is laid out in a section is stored there. -/
theorem stored_of_placed (hsize : tree.bytes.size < 2 ^ 31)
    (haddress : tree.virtualAddress.toNat + tree.bytes.size < 2 ^ 32) {below : Nat}
    {entries : Tree Selector below} (hnarrow : Tree.Narrow below entries)
    (h : Placed tree.bytes offset (directoryOctets tree.virtualAddress below offset entries)) :
    Stored tree (SelectedBy tree) below offset entries := by
  induction below generalizing offset with
  | zero =>
    obtain ⟨hdirectory, hentries⟩ := EntryLayout.directory_placed hnarrow h
    refine ⟨hdirectory, fun i e he => ?_⟩
    obtain ⟨q, hwords, hoctets⟩ := hentries i e he
    obtain ⟨hdata, hleaf⟩ := leafStored_of_placed hsize haddress hoctets.right hoctets.left
    exact ⟨_, hwords, hdata, hleaf⟩
  | succ below ih =>
    obtain ⟨hdirectory, hentries⟩ := EntryLayout.directory_placed hnarrow.1 h
    refine ⟨hdirectory, fun i e he => ?_⟩
    obtain ⟨q, hwords, hoctets⟩ := hentries i e he
    have hend := hoctets.left.le_size
    have htarget : q + (selectorOctets e.1).length < 2 ^ 31 := by omega
    refine ⟨_, _, selectedBy_of_placed hsize hoctets.left, hwords, hasHighBit_flagged htarget, ?_⟩
    rw [lowBits_flagged htarget]
    exact ih (hnarrow.2 e (List.mem_of_getElem? he)) hoctets.right

end Stored

/-! ## Types -/

namespace Selector

/-- The label of the type that a selector stands for. -/
def text : Selector → String
  | .id number => resourceTypeName number
  | .name text => text

/-- Numbers leave the highest bit free, and names hold no zero character and can be counted. -/
def Writable : Selector → Prop
  | .id number => number.toNat < 2 ^ 31
  | .name text => '\x00' ∉ text.toList ∧ (Utf16.encode text).length < 2 ^ 16

instance : (s : Selector) → Decidable s.Writable
  | .id number => inferInstanceAs (Decidable (number.toNat < 2 ^ 31))
  | .name text =>
    inferInstanceAs (Decidable ('\x00' ∉ text.toList ∧ (Utf16.encode text).length < 2 ^ 16))

end Selector

lemma typeLabel_of_selected {tree : ResourceSection} {s : Selector} (hs : s.Writable) {word : UInt32}
    (h : SelectedBy tree s word) : typeLabel tree word = .ok s.text := by
  cases s with
  | id number =>
    obtain rfl : word = number := h
    have hlow : hasHighBit word = false := by
      rw [hasHighBit, decide_eq_false_iff_not, UInt32.le_iff_toNat_le]
      exact Nat.not_le.mpr hs
    simp [typeLabel, hlow, Selector.text]
  | name text =>
    obtain ⟨hhigh, hname⟩ := h
    obtain ⟨hnul, hcount⟩ := hs
    have hunits : u16 tree.bytes (lowBits word) = .ok (UInt16.ofNat (Utf16.encode text).length) :=
      u16_ok.mpr (hname.left.u16? hcount)
    have hslice : slice tree.bytes (lowBits word + 2)
        ((UInt16.ofNat (Utf16.encode text).length).toNat * 2) =
          .ok (Utf16.octets (Utf16.encode text)) := by
      have hunits := hname.right.slice?
      rw [length_littleOctets, length_octets, Array.toArray_toList, Nat.mul_comm] at hunits
      rw [UInt16.toNat_ofNat_of_lt' hcount, slice, checked_ok]
      exact hunits
    have htext : Utf16.textBeforeNul (Utf16.octets (Utf16.encode text)) = text := by
      rw [Utf16.textBeforeNul, unitsBeforeNul_octets (zero_not_mem_encode hnul), decode_encode,
        String.ofList_toList]
    rw [typeLabel, if_pos hhigh]
    simp only [bind_ok]
    refine ⟨_, hunits, _, hslice, ?_⟩
    rw [htext]
    rfl

end Hallmark.Proofs
