import Hallmark.Proofs.ImportLimits
import Hallmark.Proofs.ResourceLeaves

/-!
# Truncations and shortages

A truncation says how many bytes were needed at a place and how many there were. None that comes
from a walk over an import table is without a shortage. A walk over a resource tree reports one at
one place only: the bytes of a leaf without bytes are looked for at their place, also behind the end.
-/

namespace Hallmark.Proofs
open Pe Pe.ResourceTree

/-- A truncation comes from a place where more bytes were needed than there are from there on. -/
def NamesShortage (data : Bytes) : Error → Prop
  | .truncated offset needed available => available = data.size - offset ∧ available < needed
  | _ => True

/-- Every failure of the walk is as `P` says. -/
def FailsWith {α : Type} (P : Error → Prop) (x : Walk α) : Prop :=
  ∀ s e t, x.run s = .error e t → P e

namespace FailsWith
variable {α β : Type} {P : Error → Prop}

lemma ofExcept {r : Except Error α} (h : ∀ e, r = .error e → P e) : FailsWith P (ofExcept r) := by
  intro s e t hrun
  cases r with
  | ok a => cases hrun
  | error fault =>
    cases hrun
    exact h e rfl

lemma throw {e : Error} (h : P e) : FailsWith P (throw e : Walk α) := by
  intro s e' t hrun
  cases hrun
  exact h

lemma bind {x : Walk α} {f : α → Walk β} (h : FailsWith P x)
    (h' : ∀ s a t, x.run s = .ok a t → FailsWith P (f a)) : FailsWith P (x >>= f) := by
  intro s e t hrun
  rcases run_bind_error.mp hrun with hfirst | ⟨a, u, hfirst, hrest⟩
  · exact h s e t hfirst
  · exact h' s a u hfirst u e t hrest

lemma forM {f : Nat → Walk Unit} {l : List Nat} (h : ∀ i ∈ l, FailsWith P (f i)) :
    FailsWith P (l.forM f) := by
  induction l with
  | nil =>
    intro s e t hrun
    cases hrun
  | cons i l ih =>
    rw [forM_cons_eq]
    obtain ⟨hfirst, hrest⟩ := List.forall_mem_cons.mp h
    exact bind hfirst fun _ _ _ _ => ih hrest

lemma mono {Q : Error → Prop} {x : Walk α} (h : FailsWith P x) (hPQ : ∀ e, P e → Q e) :
    FailsWith Q x := by
  intro s e t hrun
  exact hPQ e (h s e t hrun)

end FailsWith

/-! ## Reads -/

section Reads
variable {data : Bytes} {offset len : Nat} {e : Error}

lemma namesShortage_u16 (h : u16 data offset = .error e) : NamesShortage data e := by
  obtain ⟨hshort, rfl⟩ := u16_error.mp h
  exact ⟨rfl, by omega⟩

lemma namesShortage_u32 (h : u32 data offset = .error e) : NamesShortage data e := by
  obtain ⟨hshort, rfl⟩ := u32_error.mp h
  exact ⟨rfl, by omega⟩

/-- A read of no bytes fails behind the end, and then names no shortage. -/
lemma namesShortage_slice (hneeded : 0 < len ∨ offset ≤ data.size)
    (h : slice data offset len = .error e) : NamesShortage data e := by
  obtain ⟨hshort, rfl⟩ := slice_error.mp h
  exact ⟨rfl, by omega⟩

lemma namesShortage_rvaOffset {rva base : UInt32} (h : rvaOffset rva base = .error e) :
    NamesShortage data e := by
  obtain ⟨-, rfl⟩ := rvaOffset_error.mp h
  trivial

end Reads

/-! ## Resource trees -/

/-- A data record on the tree, `below` levels under the directory at `offset`. -/
inductive RecordOn (tree : ResourceSection) : (below offset record : Nat) → Prop
  | here {offset i : Nat} {e : DirectoryEntry} : EntryAt tree offset i e →
      hasHighBit e.target = false → RecordOn tree 0 offset e.target.toNat
  | down {below offset i record : Nat} {e : DirectoryEntry} : EntryAt tree offset i e →
      hasHighBit e.target → RecordOn tree below (lowBits e.target) record →
      RecordOn tree (below + 1) offset record

/-- The data record gives its leaf no bytes, at a place behind the end of the section. -/
structure EmptyBehindEnd (tree : ResourceSection) (record place : Nat) : Prop where
  address : ∃ rva, Bytes.u32? tree.bytes record = some rva ∧ tree.virtualAddress ≤ rva ∧
    place = rva.toNat - tree.virtualAddress.toNat
  size : Bytes.u32? tree.bytes (record + 4) = some 0
  behind : tree.bytes.size < place

/-- What a walk from the directory at `offset` fails with: an error that names no shortage without
one, or the truncation of a leaf without bytes. -/
def TreeFailure (tree : ResourceSection) (below offset : Nat) (e : Error) : Prop :=
  NamesShortage tree.bytes e ∨ ∃ record place, RecordOn tree below offset record ∧
    EmptyBehindEnd tree record place ∧ e = .truncated place 0 0

section Tree
variable {tree : ResourceSection} {options : Options} {below offset : Nat} {label : Option String}
  {e : Error}

/-- The entries of a directory are looked for right behind its header, which is there. -/
lemma directorySize_error (h : directorySize tree offset = .error e) :
    NamesShortage tree.bytes e := by
  simp only [directorySize, bind_error] at h
  rcases h with hheader | ⟨_, hheader, hnamed | ⟨named, -, hnumbered | ⟨numbered, -, hentries |
    ⟨_, -, hcount⟩⟩⟩⟩
  · exact namesShortage_slice (.inl (by decide)) hheader
  · exact namesShortage_u16 hnamed
  · exact namesShortage_u16 hnumbered
  · exact namesShortage_slice (.inr (slice_ok.mp hheader).1) hentries
  · cases hcount

/-- The units of a name are looked for right behind their number, which is there. -/
lemma typeLabel_error {selector : UInt32} (h : typeLabel tree selector = .error e) :
    NamesShortage tree.bytes e := by
  unfold typeLabel at h
  by_cases hbit : hasHighBit selector
  · simp only [if_pos hbit, bind_error] at h
    rcases h with hunits | ⟨units, hunits, hname | ⟨_, -, htext⟩⟩
    · exact namesShortage_u16 hunits
    · apply namesShortage_slice (.inr ?_) hname
      by_contra hout
      have hnone : u16 tree.bytes (lowBits selector) = .error _ :=
        u16_error.mpr ⟨Nat.not_le.mp hout, rfl⟩
      simp [hunits] at hnone
    · cases htext
  · rw [if_neg hbit] at h
    cases h

lemma labelledEntry_error {place : Nat} (h : labelledEntry tree label place = .error e) :
    NamesShortage tree.bytes e := by
  simp only [labelledEntry, bind_error] at h
  rcases h with hselector | ⟨selector, -, htarget | ⟨target, -, hlabel | ⟨_, -, hentry⟩⟩⟩
  · exact namesShortage_u32 hselector
  · exact namesShortage_u32 htarget
  · cases label with
    | none => exact typeLabel_error hlabel
    | some name => cases hlabel
  · cases hentry

/-- The bytes of a leaf are the one thing that is looked for at a place of its own. -/
lemma leafAt_error {record : Nat} {name : String} {language : UInt16}
    (h : leafAt tree options record name language = .error e) :
    NamesShortage tree.bytes e ∨
      ∃ place, EmptyBehindEnd tree record place ∧ e = .truncated place 0 0 := by
  simp only [leafAt, bind_error] at h
  rcases h with hrecord | ⟨_, -, hrva | ⟨rva, hrva, hsize | ⟨size, hsize, hplace |
    ⟨place, hplace, hdata | ⟨_, -, hleaf⟩⟩⟩⟩⟩
  · exact .inl (namesShortage_slice (.inl (by decide)) hrecord)
  · exact .inl (namesShortage_u32 hrva)
  · exact .inl (namesShortage_u32 hsize)
  · exact .inl (namesShortage_rvaOffset hplace)
  · by_cases hempty : size = 0 ∧ tree.bytes.size < place
    · obtain ⟨rfl, hbehind⟩ := hempty
      obtain ⟨habove, hvalue⟩ := rvaOffset_ok.mp hplace
      obtain ⟨-, rfl⟩ := slice_error.mp hdata
      refine .inr ⟨place, ⟨⟨rva, u32_ok.mp hrva, habove, hvalue⟩, u32_ok.mp hsize, hbehind⟩, ?_⟩
      rw [Nat.sub_eq_zero_of_le hbehind.le]
      rfl
    · have hneeded : 0 < size.toNat ∨ place ≤ tree.bytes.size := by
        by_contra hnot
        apply hempty
        rw [← UInt32.toNat_inj]
        exact ⟨by simp; omega, by omega⟩
      exact .inl (namesShortage_slice hneeded hdata)
  · cases hleaf

lemma charge_failsWith (count : Nat) :
    FailsWith (NamesShortage tree.bytes) (charge options count) := by
  intro s e t hrun
  rw [run_charge] at hrun
  split_ifs at hrun
  cases hrun
  trivial

lemma takeLeaf_failsWith {record : Nat} {name : String} {language : UInt16}
    (hrecord : RecordOn tree below offset record) :
    FailsWith (TreeFailure tree below offset) (takeLeaf tree options record name language) := by
  intro s e t hrun
  obtain ⟨-, ⟨-, rfl⟩ | ⟨-, hleaf⟩⟩ := takeLeaf_error.mp hrun
  · exact .inl trivial
  · rcases leafAt_error hleaf with hshort | ⟨place, hempty, he⟩
    · exact .inl hshort
    · exact .inr ⟨record, place, hrecord, hempty, he⟩

/-- A walk fails as the visits to the entries of its directory do. -/
lemma walk_failsWith_of_follow
    (hfollow : ∀ i entry name, EntryAt tree offset i entry →
      FailsWith (TreeFailure tree below offset)
        (follow tree options (descent tree options below) entry name)) :
    FailsWith (TreeFailure tree below offset) (walk tree options below offset label) := by
  rw [walk_eq]
  refine FailsWith.bind (.ofExcept fun e he => .inl (directorySize_error he)) ?_
  intro s count t hsize
  obtain ⟨hdir, -⟩ := run_ofExcept_ok.mp hsize
  rw [directorySize_ok] at hdir
  refine FailsWith.bind ((charge_failsWith count).mono fun e => .inl) ?_
  intro s' count' t' hcharge
  rw [run_charge] at hcharge
  split_ifs at hcharge
  cases hcharge
  refine FailsWith.forM fun i hi => ?_
  refine FailsWith.bind (.ofExcept fun e he => .inl (labelledEntry_error he)) ?_
  intro _ entry _ hentry
  obtain ⟨hentry, -⟩ := run_ofExcept_ok.mp hentry
  obtain ⟨hselector, htarget, -⟩ := labelledEntry_ok hentry
  exact hfollow i entry.1 entry.2 ⟨⟨count, hdir, List.mem_range.mp hi⟩, hselector, htarget⟩

theorem walk_failsWith :
    FailsWith (TreeFailure tree below offset) (walk tree options below offset label) := by
  induction below generalizing offset label with
  | zero =>
    apply walk_failsWith_of_follow
    intro i entry name hentry
    unfold follow
    cases hbit : hasHighBit entry.target with
    | true => exact .throw (.inl trivial)
    | false => exact takeLeaf_failsWith (.here hentry hbit)
  | succ below ih =>
    apply walk_failsWith_of_follow
    intro i entry name hentry
    unfold follow
    cases hbit : hasHighBit entry.target with
    | true =>
      refine FailsWith.mono ih ?_
      rintro e (hshort | ⟨record, place, hrecord, hempty, he⟩)
      · exact .inl hshort
      · exact .inr ⟨record, place, .down hentry hbit hrecord, hempty, he⟩
    | false => exact .throw (.inl trivial)

lemma leaves_error (h : leaves tree options = .error e) :
    TreeFailure tree levelsBelowRoot 0 e := by
  unfold leaves at h
  cases hrun : (walk tree options levelsBelowRoot 0 none).run .start with
  | ok a t =>
    rw [hrun] at h
    cases h
  | error fault t =>
    rw [hrun] at h
    cases h
    exact walk_failsWith _ _ _ hrun

end Tree

/-! ## Import tables -/

section Imports
variable {dir : ImportDirectory} {options : Options} {offset needed available : Nat} {e : Error}

lemma nameFault_namesShortage {rva : UInt32} {skip : Nat} (h : NameFault dir rva skip e) :
    NamesShortage dir.bytes e := by
  cases h <;> trivial

lemma thunkFault_namesShortage {limit count : Nat} (h : ThunkFault dir limit count offset e) :
    NamesShortage dir.bytes e := by
  cases h with
  | cutOff hin h => exact ⟨rfl, by omega⟩
  | name _ _ _ h => exact nameFault_namesShortage h
  | limit => trivial

lemma tableFault_namesShortage {limit : Nat} (h : TableFault dir limit e) :
    NamesShortage dir.bytes e := by
  cases h with
  | below => trivial
  | outside => trivial
  | descriptor _ _ _ _ h =>
    cases h with
    | library _ h => exact nameFault_namesShortage h
    | lookup => trivial
    | thunk _ _ _ _ _ h => exact thunkFault_namesShortage h

end Imports

/-- A truncation of an import table needs more bytes at its place than the section holds from there
on. So does one of a resource tree, unless it is that of a leaf on the tree whose record gives it no
bytes behind the end of the section. -/
theorem truncations_name_shortages (tree : ResourceSection) (dir : ImportDirectory)
    (options : Options) (offset needed available : Nat) :
    (leaves tree options = .error (.truncated offset needed available) →
      available = tree.bytes.size - offset ∧
        (available < needed ∨ needed = 0 ∧ ∃ record,
          RecordOn tree levelsBelowRoot 0 record ∧ EmptyBehindEnd tree record offset)) ∧
    (dir.entries options = .error (.truncated offset needed available) →
      available = dir.bytes.size - offset ∧ available < needed) := by
  constructor
  · intro h
    rcases leaves_error h with ⟨hleft, hshort⟩ | ⟨record, place, hrecord, hempty, he⟩
    · exact ⟨hleft, .inl hshort⟩
    · obtain ⟨rfl, rfl, rfl⟩ : offset = place ∧ needed = 0 ∧ available = 0 := by
        simpa using he
      exact ⟨(Nat.sub_eq_zero_of_le hempty.behind.le).symm, .inr ⟨rfl, record, hrecord, hempty⟩⟩
  · intro h
    exact tableFault_namesShortage (entries_error_iff.mp h)

/-- A tree with one leaf, whose record gives it no bytes one place behind the end of the section. -/
def emptyLeafTree : ResourceSection where
  bytes := ([0, 0, 0, 0x00010000, 10, 0x80000018, 0, 0, 0, 0x00010000, 1, 0x80000030,
    0, 0, 0, 0x00010000, 1033, 72, 0x4059, 0, 0, 0].flatMap (littleOctets 4)).toArray
  virtualAddress := 0x4000

lemma leaves_emptyLeafTree : leaves emptyLeafTree {} = .error (.truncated 89 0 0) := by
  decide +kernel

theorem truncations_name_shortages_cutOff :
    (cutThunks.entries {} = .error (.truncated 24 4 2) ∧ 2 = cutThunks.bytes.size - 24 ∧ 2 < 4) ∧
    ∃ record, RecordOn emptyLeafTree levelsBelowRoot 0 record ∧
      EmptyBehindEnd emptyLeafTree record 89 := by
  have hcut : cutThunks.entries {} = .error (.truncated 24 4 2) := by decide +kernel
  have hempty :=
    ((truncations_name_shortages emptyLeafTree cutThunks {} 89 0 0).1 leaves_emptyLeafTree).2
  obtain hshort | ⟨-, hrecord⟩ := hempty
  · cases hshort
  · exact ⟨⟨hcut, (truncations_name_shortages emptyLeafTree cutThunks {} 24 4 2).2 hcut⟩, hrecord⟩

/-- No bytes are needed, and yet the walk over the tree is aborted by a truncation. -/
theorem empty_leaf_aborts_walk :
    leaves emptyLeafTree {} = .error (.truncated 89 0 0) ∧
      ¬∀ offset needed available,
        leaves emptyLeafTree {} = .error (.truncated offset needed available) →
          available < needed :=
  ⟨leaves_emptyLeafTree, fun h => absurd (h 89 0 0 leaves_emptyLeafTree) (by decide)⟩

end Hallmark.Proofs
