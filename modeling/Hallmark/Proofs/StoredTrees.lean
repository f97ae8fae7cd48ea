import Hallmark.Proofs.PlacedBytes
import Hallmark.Proofs.ResourcePaths

/-!
# Resource trees that are stored in a section

Where the directories of a tree stand in a section with all that they lead to, a walk whose limits
allow for it finds the leaves of the tree, in order.
-/

namespace Hallmark.Proofs
open Pe Pe.ResourceTree

/-- A directory with the given number of levels below it. The entries of the lowest directories are
languages, and those of the others are chosen by selectors. -/
def Tree (σ : Type) : Nat → Type
  | 0 => List (UInt32 × List UInt8)
  | below + 1 => List (σ × Tree σ below)

namespace Tree
variable {σ : Type}

/-- The number of entries in all directories. -/
def entryTotal : (below : Nat) → Tree σ below → Nat
  | 0, entries => entries.length
  | below + 1, entries => entries.length + (entries.map fun e => entryTotal below e.2).sum

def leafOf (options : Options) (label : String) (language : UInt16) (bytes : List UInt8) :
    ResourceLeaf where
  typeLabel := label
  language := language
  sha256 := Digest.sha256 bytes.toArray
  mime := contentType options bytes.toArray
  size := UInt64.ofNat bytes.length
  data := bytes.toArray

/-- The leaves of a directory below the types, in depth-first order. -/
def leavesUnder (options : Options) (label : String) :
    (below : Nat) → Tree σ below → List ResourceLeaf
  | 0, entries => entries.map fun e => leafOf options label e.1.toUInt16 e.2
  | below + 1, entries => entries.flatMap fun e => leavesUnder options label below e.2

def leaves (options : Options) (text : σ → String) {below : Nat} (root : List (σ × Tree σ below)) :
    List ResourceLeaf :=
  root.flatMap fun e => leavesUnder options (text e.1) below e.2

/-- The number of entries of every directory fits in its header. -/
def Narrow : (below : Nat) → Tree σ below → Prop
  | 0, (entries : List (UInt32 × List UInt8)) => entries.length < 2 ^ 16
  | below + 1, (entries : List (σ × Tree σ below)) =>
    entries.length < 2 ^ 16 ∧ ∀ e ∈ entries, Narrow below e.2

instance decidableNarrow : (below : Nat) → (entries : Tree σ below) →
    Decidable (Narrow below entries)
  | 0, entries => Nat.decLt (List.length entries) (2 ^ 16)
  | below + 1, (entries : List (σ × Tree σ below)) =>
    have := decidableNarrow below
    inferInstanceAs (Decidable (entries.length < 2 ^ 16 ∧ ∀ e ∈ entries, Narrow below e.2))

end Tree

/-! ## Words -/

/-- A word with the highest bit set. -/
def flagged (offset : Nat) : UInt32 := 0x80000000 ||| UInt32.ofNat offset

lemma toNat_flagged {n : Nat} (h : n < 2 ^ 31) : (flagged n).toNat = 2 ^ 31 + n := by
  rw [flagged, UInt32.toNat_or, UInt32.toNat_ofNat_of_lt' (Nat.lt_trans h (by decide))]
  exact (Nat.two_pow_add_eq_or_of_lt h 1).symm

lemma hasHighBit_flagged {n : Nat} (h : n < 2 ^ 31) : hasHighBit (flagged n) := by
  rw [hasHighBit, decide_eq_true_iff, UInt32.le_iff_toNat_le, toNat_flagged h]
  exact Nat.le_add_right _ _

lemma lowBits_flagged {n : Nat} (h : n < 2 ^ 31) : lowBits (flagged n) = n := by
  rw [lowBits, toNat_flagged h]
  omega

lemma hasHighBit_ofNat {n : Nat} (h : n < 2 ^ 31) : hasHighBit (UInt32.ofNat n) = false := by
  rw [hasHighBit, decide_eq_false_iff_not, UInt32.le_iff_toNat_le,
    UInt32.toNat_ofNat_of_lt' (Nat.lt_trans h (by decide))]
  exact Nat.not_le.mpr h

lemma overwrite_words (m n : Nat) (a b : List UInt8) :
    overwrite (overwrite (a ++ (zeros 8 ++ b)) a.length (littleOctets 4 m))
        (a.length + 4) (littleOctets 4 n) =
      a ++ (littleOctets 4 m ++ (littleOctets 4 n ++ b)) := by
  have hroom : zeros 8 ++ b = zeros 4 ++ (zeros 4 ++ b) := rfl
  have hfirst : (zeros 4).length = (littleOctets 4 m).length := rfl
  have hsecond : (zeros 4).length = (littleOctets 4 n).length := rfl
  have hslot : a.length + 4 = (a ++ littleOctets 4 m).length := by
    rw [List.length_append, length_littleOctets]
  rw [hroom, overwrite_between hfirst, ← List.append_assoc, hslot, overwrite_between hsecond,
    List.append_assoc]

/-! ## Stored trees -/

def entryOctets (e : DirectoryEntry) : List UInt8 :=
  littleOctets 4 e.selector.toNat ++ littleOctets 4 e.target.toNat

/-- The record of `length` bytes at an address. -/
def recordOctets (address length : Nat) : List UInt8 :=
  littleOctets 4 address ++ (littleOctets 4 length ++ zeros 8)

/-- What a directory with `count` numbered entries starts with. -/
def directoryHeader (count : Nat) : List UInt8 :=
  zeros 12 ++ (littleOctets 2 0 ++ littleOctets 2 count)

section Stored
variable (tree : ResourceSection)

/-- The two words of an entry stand at `place`. -/
def WordsAt (place : Nat) (e : DirectoryEntry) : Prop :=
  Placed tree.bytes place (entryOctets e)

/-- The record of a leaf stands at `offset`, and leads to its bytes. -/
def LeafStored (offset : Nat) (bytes : List UInt8) : Prop :=
  ∃ place, tree.virtualAddress.toNat + place < 2 ^ 32 ∧ bytes.length < 2 ^ 32 ∧
    Placed tree.bytes offset (recordOctets (tree.virtualAddress.toNat + place) bytes.length) ∧
    Placed tree.bytes place bytes

/-- The directory stands at `offset`, with words that select what is in it, and what it leads to is
stored as well. -/
def Stored {σ : Type} (selects : σ → UInt32 → Prop) :
    (below offset : Nat) → Tree σ below → Prop
  | 0, offset, (entries : List (UInt32 × List UInt8)) => DirectoryAt tree offset entries.length ∧
      ∀ i e, entries[i]? = some e → ∃ target, WordsAt tree (offset + 16 + i * 8) ⟨e.1, target⟩ ∧
        hasHighBit target = false ∧ LeafStored tree target.toNat e.2
  | below + 1, offset, (entries : List (σ × Tree σ below)) =>
      DirectoryAt tree offset entries.length ∧
      ∀ i e, entries[i]? = some e → ∃ word target, selects e.1 word ∧
        WordsAt tree (offset + 16 + i * 8) ⟨word, target⟩ ∧ hasHighBit target ∧
          Stored selects below (lowBits target) e.2

lemma length_entryOctets (e : DirectoryEntry) : (entryOctets e).length = 8 := rfl

lemma overwrite_entry (words : DirectoryEntry) (a b : List UInt8) :
    overwrite (overwrite (a ++ (zeros 8 ++ b)) a.length (littleOctets 4 words.selector.toNat))
        (a.length + 4) (littleOctets 4 words.target.toNat) =
      a ++ (entryOctets words ++ b) := by
  rw [overwrite_words, entryOctets, List.append_assoc (littleOctets 4 _)]

lemma length_recordOctets (address length : Nat) : (recordOctets address length).length = 16 := rfl

lemma length_directoryHeader (count : Nat) : (directoryHeader count).length = 16 := rfl

lemma directoryAt_of_placed {tree : ResourceSection} {offset count : Nat} {room : List UInt8}
    (hcount : count < 2 ^ 16) (hroom : room.length = count * 8)
    (h : Placed tree.bytes offset (directoryHeader count ++ room)) :
    DirectoryAt tree offset count := by
  have hwords : Placed tree.bytes (offset + 12) (littleOctets 2 0 ++ littleOctets 2 count) :=
    h.left.right
  have hnumbered : Placed tree.bytes (offset + 14) (littleOctets 2 count) := hwords.right
  have hinside := h.le_size
  rw [List.length_append, length_directoryHeader, hroom] at hinside
  refine ⟨⟨0, UInt16.ofNat count, hwords.left.u16? (by decide), hnumbered.u16? hcount, ?_⟩, by omega⟩
  rw [UInt16.toNat_ofNat_of_lt' hcount]
  exact (Nat.zero_add count).symm

/-- A leaf is stored where its record is, if the section is small and does not reach the end of the
addresses. -/
lemma leafStored_of_placed {tree : ResourceSection} (hsize : tree.bytes.size < 2 ^ 31)
    (haddress : tree.virtualAddress.toNat + tree.bytes.size < 2 ^ 32) {bytes : List UInt8}
    {record place : Nat}
    (hrecord : Placed tree.bytes record
      (recordOctets (tree.virtualAddress + UInt32.ofNat place).toNat bytes.length))
    (hbytes : Placed tree.bytes place bytes) :
    hasHighBit (UInt32.ofNat record) = false ∧
      LeafStored tree (UInt32.ofNat record).toNat bytes := by
  have hrecordEnd := hrecord.le_size
  have hbytesEnd := hbytes.le_size
  have hplace : (tree.virtualAddress + UInt32.ofNat place).toNat =
      tree.virtualAddress.toNat + place := by
    rw [UInt32.toNat_add, UInt32.toNat_ofNat_of_lt' (show place < 2 ^ 32 by omega)]
    omega
  refine ⟨hasHighBit_ofNat (by omega), place, by omega, by omega, ?_, hbytes⟩
  rw [UInt32.toNat_ofNat_of_lt' (show record < 2 ^ 32 by omega), ← hplace]
  exact hrecord

end Stored

/-! ## Walks with room -/

/-- With room for `cost` entries and for the leaves, a walk succeeds, charges the one and adds the
others. -/
def Gains (options : Options) (x : Walk Unit) (cost : Nat) (ls : List ResourceLeaf) : Prop :=
  ∀ s : Progress, s.entries + cost ≤ options.maxResourceEntries.toNat →
    s.leaves.size + ls.length ≤ options.maxResources.toNat →
    ∃ t, x.run s = .ok () t ∧ t.entries = s.entries + cost ∧
      t.leaves.toList = s.leaves.toList ++ ls

namespace Gains
variable {options : Options} {x y : Walk Unit} {m n : Nat} {ls ks : List ResourceLeaf}

lemma nothing : Gains options (pure ()) 0 [] := by
  intro s _ _
  exact ⟨s, rfl, rfl, (List.append_nil _).symm⟩

lemma bind (hx : Gains options x m ls) (hy : Gains options y n ks) :
    Gains options (x >>= fun _ => y) (m + n) (ls ++ ks) := by
  intro s hentries hleaves
  rw [List.length_append] at hleaves
  obtain ⟨t, hxrun, htentries, htleaves⟩ := hx s (by omega) (by omega)
  have hsize : t.leaves.size = s.leaves.size + ls.length := by
    rw [← Array.length_toList, htleaves, List.length_append, Array.length_toList]
  obtain ⟨u, hyrun, huentries, huleaves⟩ := hy t (by omega) (by omega)
  refine ⟨u, run_bind_ok.mpr ⟨(), t, hxrun, hyrun⟩, by omega, ?_⟩
  rw [huleaves, htleaves, List.append_assoc]

lemma forM {α : Type} {f : Nat → Walk Unit} {cost : α → Nat} {found : α → List ResourceLeaf}
    {k : Nat} {items : List α}
    (h : ∀ i a, items[i]? = some a → Gains options (f (k + i)) (cost a) (found a)) :
    Gains options ((List.range' k items.length).forM f) (items.map cost).sum
      (items.flatMap found) := by
  induction items generalizing k with
  | nil => exact nothing
  | cons a items ih =>
    rw [List.length_cons, List.range'_succ, forM_cons_eq, List.map_cons, List.sum_cons,
      List.flatMap_cons]
    refine bind (h 0 a rfl) (ih fun i b hb => ?_)
    rw [Nat.add_assoc, Nat.add_comm 1]
    exact h (i + 1) b hb

end Gains

/-! ## Walks over stored trees -/

section Walks
variable {tree : ResourceSection} {options : Options} {offset : Nat} {label : Option String}

lemma labelledEntry_of_wordsAt {place : Nat} {e : DirectoryEntry} {name : String}
    (h : WordsAt tree place e) (hname : labelOf tree label e.selector = .ok name) :
    labelledEntry tree label place = .ok (e, name) := by
  have hselector := h.left.u32 e.selector.toNat_lt
  have htarget := h.right.u32 e.target.toNat_lt
  rw [UInt32.ofNat_toNat] at hselector htarget
  rw [length_littleOctets] at htarget
  simp only [labelledEntry, bind_ok]
  exact ⟨_, hselector, _, htarget, name, hname, rfl⟩

lemma walk_gains {below : Nat} {α : Type} {cost : α → Nat} {found : α → List ResourceLeaf}
    {items : List α} (hdirectory : DirectoryAt tree offset items.length)
    (hvisit : ∀ i a, items[i]? = some a →
      Gains options (visitNumber tree options below offset label i) (cost a) (found a)) :
    Gains options (walk tree options below offset label)
      (items.length + (items.map cost).sum) (items.flatMap found) := by
  intro s hentries hleaves
  have hforM : Gains options
      ((List.range items.length).forM (visitNumber tree options below offset label))
      (items.map cost).sum (items.flatMap found) := by
    rw [List.range_eq_range']
    refine Gains.forM fun i a ha => ?_
    rw [Nat.zero_add]
    exact hvisit i a ha
  obtain ⟨t, hrun, htentries, htleaves⟩ := hforM ⟨s.directories + 1, s.entries + items.length,
    s.leaves⟩ (by simpa [Nat.add_assoc] using hentries) hleaves
  change t.entries = s.entries + items.length + (items.map cost).sum at htentries
  refine ⟨t, ?_, by omega, htleaves⟩
  rw [walk_eq, directorySize_ok.mpr hdirectory, ofExcept_ok_bind, EStateM.run_bind, run_charge,
    if_neg (by omega)]
  exact hrun

lemma toUInt64_ofNat {n : Nat} (h : n < 2 ^ 32) : (UInt32.ofNat n).toUInt64 = UInt64.ofNat n := by
  rw [← UInt64.toNat_inj, UInt32.toNat_toUInt64, UInt32.toNat_ofNat_of_lt' h,
    UInt64.toNat_ofNat_of_lt' (Nat.lt_trans h (by decide))]

lemma leafAt_of_stored {bytes : List UInt8} (h : LeafStored tree offset bytes) (name : String)
    (language : UInt16) :
    leafAt tree options offset name language = .ok (Tree.leafOf options name language bytes) := by
  obtain ⟨place, haddress, hlength, hrecord, hbytes⟩ := h
  have hinside := hrecord.le_size
  simp only [recordOctets, List.length_append, length_littleOctets, length_zeros] at hinside
  have hrva := hrecord.left.u32 haddress
  have hsize := hrecord.right.left.u32 hlength
  rw [length_littleOctets] at hsize
  have hplace : rvaOffset (UInt32.ofNat (tree.virtualAddress.toNat + place)) tree.virtualAddress =
      .ok place := by
    rw [rvaOffset_ok, UInt32.le_iff_toNat_le, UInt32.toNat_ofNat_of_lt' haddress]
    omega
  have hslice : slice tree.bytes place (UInt32.ofNat bytes.length).toNat = .ok bytes.toArray := by
    rw [UInt32.toNat_ofNat_of_lt' hlength, slice, checked_ok]
    exact hbytes.slice?
  simp only [leafAt, bind_ok]
  refine ⟨_, slice_ok.mpr ⟨hinside, rfl⟩, _, hrva, _, hsize, place, hplace, _, hslice, ?_⟩
  rw [toUInt64_ofNat hlength]
  rfl

lemma takeLeaf_gains {bytes : List UInt8} (h : LeafStored tree offset bytes) (name : String)
    (language : UInt16) :
    Gains options (takeLeaf tree options offset name language) 0
      [Tree.leafOf options name language bytes] := by
  intro s _ hleaves
  rw [List.length_singleton] at hleaves
  refine ⟨_, takeLeaf_ok.mpr ⟨by omega, _, leafAt_of_stored h name language, rfl⟩, rfl, ?_⟩
  exact Array.toList_push

lemma follow_leaf {e : DirectoryEntry} {name : String} (h : hasHighBit e.target = false) :
    follow tree options none e name =
      takeLeaf tree options e.target.toNat name e.selector.toUInt16 := by
  unfold follow
  rw [h]

lemma follow_directory {descend : Nat → String → Walk Unit} {e : DirectoryEntry} {name : String}
    (h : hasHighBit e.target) :
    follow tree options (some descend) e name = descend (lowBits e.target) name := by
  unfold follow
  rw [h]

section Directories
variable {σ : Type} {selects : σ → UInt32 → Prop}

lemma walk_languages {entries : List (UInt32 × List UInt8)}
    (h : Stored tree selects 0 offset entries) (name : String) :
    Gains options (walk tree options 0 offset (some name)) (Tree.entryTotal (σ := σ) 0 entries)
      (Tree.leavesUnder (σ := σ) options name 0 entries) := by
  obtain ⟨hdirectory, hentries⟩ := h
  have hvisit (i : Nat) (e : UInt32 × List UInt8) (he : entries[i]? = some e) :
      Gains options (visitNumber tree options 0 offset (some name) i) 0
        [Tree.leafOf options name e.1.toUInt16 e.2] := by
    obtain ⟨target, hwords, hdata, hleaf⟩ := hentries i e he
    rw [visitNumber, labelledEntry_of_wordsAt hwords rfl, ofExcept_ok_bind, descent,
      follow_leaf hdata]
    exact takeLeaf_gains hleaf name _
  have hwalk := walk_gains hdirectory hvisit
  rw [List.map_const', List.sum_replicate_nat, Nat.mul_zero, Nat.add_zero,
    ← List.map_eq_flatMap] at hwalk
  exact hwalk

lemma walk_stored {below : Nat} {entries : Tree σ below} (h : Stored tree selects below offset entries)
    (name : String) :
    Gains options (walk tree options below offset (some name)) (Tree.entryTotal below entries)
      (Tree.leavesUnder options name below entries) := by
  induction below generalizing offset with
  | zero => exact walk_languages h name
  | succ below ih =>
    obtain ⟨hdirectory, hentries⟩ := h
    refine walk_gains hdirectory fun i e he => ?_
    obtain ⟨word, target, -, hwords, hhigh, hchild⟩ := hentries i e he
    rw [visitNumber, labelledEntry_of_wordsAt hwords rfl, ofExcept_ok_bind, descent,
      follow_directory hhigh]
    exact ih hchild

/-- A walk over the types finds the leaves of all of them, each with the text of its type. -/
lemma walk_root_stored {below : Nat} {root : List (σ × Tree σ below)} {text : σ → String}
    (h : Stored tree selects (below + 1) offset root)
    (htypes : ∀ e ∈ root, ∀ word, selects e.1 word → typeLabel tree word = .ok (text e.1)) :
    Gains options (walk tree options (below + 1) offset none)
      (Tree.entryTotal (σ := σ) (below + 1) root) (Tree.leaves options text root) := by
  obtain ⟨hdirectory, hentries⟩ := h
  refine walk_gains hdirectory fun i e he => ?_
  obtain ⟨word, target, hselects, hwords, hhigh, hchild⟩ := hentries i e he
  have hlabel : labelOf tree none word = .ok (text e.1) :=
    htypes e (List.mem_of_getElem? he) word hselects
  rw [visitNumber, labelledEntry_of_wordsAt hwords hlabel, ofExcept_ok_bind, descent,
    follow_directory hhigh]
  exact walk_stored hchild (text e.1)

/-- The leaves of a stored tree are read in order, if the limits allow for them. -/
theorem leaves_of_stored {root : List (σ × Tree σ 1)} {text : σ → String}
    (h : Stored tree selects levelsBelowRoot 0 root)
    (htypes : ∀ e ∈ root, ∀ word, selects e.1 word → typeLabel tree word = .ok (text e.1))
    (hentries : Tree.entryTotal (σ := σ) 2 root ≤ options.maxResourceEntries.toNat)
    (hleaves : (Tree.leaves options text root).length ≤ options.maxResources.toNat) :
    leaves tree options = .ok (Tree.leaves options text root) := by
  obtain ⟨t, hrun, -, htleaves⟩ := walk_root_stored h htypes .start
    (by simpa [Progress.start] using hentries) (by simpa [Progress.start] using hleaves)
  have hwalk : (walk tree options levelsBelowRoot 0 none).run .start = .ok () t := hrun
  rw [ResourceTree.leaves, hwalk]
  exact congrArg Except.ok htleaves

end Directories
end Walks
end Hallmark.Proofs
