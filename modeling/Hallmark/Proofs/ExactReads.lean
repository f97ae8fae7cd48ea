import Hallmark.Proofs.TerminatedTexts
import Mathlib.Data.Nat.Digits.Defs

/-!
# Exact reads

A checked read succeeds if and only if the bytes that it needs are there, counted in natural numbers.
So does a read that adds its place and its length as machine words: a sum that wraps is noticed, and
no place at the top of the range is taken for one near the start.
-/

namespace Hallmark.Proofs
open Pe

/-! ## Numbers and slices -/

/-- The octets from a place on, `count` of them if there are as many. -/
def octetsAt (data : Bytes) (offset count : Nat) : List UInt8 :=
  (data.toList.drop offset).take count

/-- The number whose digits to the base 256 are the octets, the lowest first. -/
def littleEndian (octets : List UInt8) : Nat := Nat.ofDigits 256 (octets.map UInt8.toNat)

/-- The read succeeds if and only if the bytes that it needs are there. It answers with what they
stand for, and otherwise says where it stood, what it needed and what was left. -/
structure ExactRead {α : Type} (data : Bytes) (offset needed : Nat)
    (StandFor : List UInt8 → α → Prop) (result : Except Error α) : Prop where
  succeeds : (∃ a, result = .ok a) ↔ offset + needed ≤ data.size
  answer : ∀ a, result = .ok a → StandFor (octetsAt data offset needed) a
  shortage : ∀ e, result = .error e → e = .truncated offset needed (data.size - offset)

lemma ExactRead.error_of_short {α : Type} {data : Bytes} {offset needed : Nat}
    {StandFor : List UInt8 → α → Prop} {result : Except Error α}
    (h : ExactRead data offset needed StandFor result) (hshort : data.size < offset + needed) :
    result = .error (.truncated offset needed (data.size - offset)) := by
  cases hresult : result with
  | ok a => exact absurd (h.succeeds.mp ⟨a, hresult⟩) (Nat.not_le.mpr hshort)
  | error e => rw [h.shortage e hresult]

lemma littleValue_eq (octets : List UInt8) : littleValue octets = littleEndian octets := by
  induction octets with
  | nil => rfl
  | cons b octets ih =>
    rw [littleValue, ih, littleEndian, littleEndian, List.map_cons, Nat.ofDigits_cons]

section Reads
variable {data : Bytes} {offset : Nat}

lemma exactRead_checked {α : Type} {StandFor : List UInt8 → α → Prop} {needed : Nat} {r : Option α}
    (hnone : r = none ↔ data.size < offset + needed)
    (hsome : ∀ a, r = some a → StandFor (octetsAt data offset needed) a) :
    ExactRead data offset needed StandFor (checked data offset needed r) := by
  refine ⟨⟨?_, ?_⟩, ?_, ?_⟩
  · rintro ⟨a, h⟩
    by_contra hout
    rw [checked_ok, hnone.mpr (Nat.not_le.mp hout)] at h
    cases h
  · intro hin
    cases r with
    | none => exact absurd (hnone.mp rfl) (Nat.not_lt.mpr hin)
    | some a => exact ⟨a, rfl⟩
  · intro a h
    exact hsome a (checked_ok.mp h)
  · intro e h
    exact (checked_error.mp h).2

lemma slice?_some {len : Nat} {bytes : Bytes} (h : Bytes.slice? data offset len = some bytes) :
    bytes.toList = octetsAt data offset len := by
  rw [Bytes.slice?] at h
  split_ifs at h
  obtain rfl := Option.some.inj h
  rw [Array.toList_extract, List.extract_eq_take_drop, Nat.add_sub_cancel_left, octetsAt]

lemma exactRead_slice (data : Bytes) (offset len : Nat) :
    ExactRead data offset len (fun octets bytes => bytes.toList = octets) (slice data offset len) :=
  exactRead_checked slice?_none fun _ => slice?_some

lemma nat?_some {width n : Nat} (h : Bytes.nat? data .little width offset = some n) :
    n = littleEndian (octetsAt data offset width) := by
  rw [Bytes.nat?, Option.map_eq_some_iff] at h
  obtain ⟨bytes, hslice, rfl⟩ := h
  rw [ByteOrder.value, littleValue_eq, slice?_some hslice]

/-- Words of any width are read alike, as long as a word holds what its octets can denote. -/
lemma exactRead_number {α : Type} {ofNat : Nat → α} {toNat : α → Nat} {width : Nat}
    (hback : ∀ n < 256 ^ width, toNat (ofNat n) = n) (data : Bytes) (offset : Nat) :
    ExactRead data offset width (fun octets w => toNat w = littleEndian octets)
      (checked data offset width ((Bytes.nat? data .little width offset).map ofNat)) := by
  apply exactRead_checked
  · rw [Option.map_eq_none_iff, nat?_none]
  · intro w h
    obtain ⟨n, hnat, rfl⟩ := Option.map_eq_some_iff.mp h
    rw [hback n (nat?_lt hnat), nat?_some hnat]

end Reads

/-! ## Texts -/

/-- The octets stand at the place, none of them is zero, and they reach as far as any others. -/
structure LongestRun (data : Bytes) (offset : Nat) (run : List UInt8) : Prop where
  here : run <+: data.toList.drop offset
  nonzero : 0 ∉ run
  longest : ∀ other, other <+: data.toList.drop offset → 0 ∉ other → other <+: run

/-- The read of a text succeeds if and only if there are bytes at its place and a zero octet among
them. It answers with what stands in front of the first one, and otherwise says which is missing. -/
structure ExactTextRead (data : Bytes) (offset : Nat) (result : Except Error Bytes) : Prop where
  succeeds : (∃ text, result = .ok text) ↔
    offset < data.size ∧ ∃ i, offset ≤ i ∧ data[i]? = some 0
  answer : ∀ text, result = .ok text → LongestRun data offset text.toList
  missing : ∀ e, result = .error e →
    e = if data.size ≤ offset then .invalidOffset offset else .invalidString offset

section Texts
variable {data : Bytes} {offset : Nat} {text : Bytes}

lemma TextAt.longestRun (h : TextAt data offset text) : LongestRun data offset text.toList := by
  obtain ⟨before, after, hdata, hlength⟩ := h.placed
  have hdrop : data.toList.drop offset = text.toList ++ 0 :: after := by
    rw [hdata, ← hlength, List.drop_left, List.append_assoc]
    rfl
  rw [List.append_cons] at hdrop
  refine ⟨?_, h.nonzero, fun other hother hzero => ?_⟩
  · rw [hdrop, List.append_assoc]
    exact List.prefix_append _ _
  -- A run that goes beyond the text would hold the zero octet behind it.
  · have htext : text.toList ++ [0] <+: data.toList.drop offset := by
      rw [hdrop]
      exact List.prefix_append _ _
    rcases List.prefix_or_prefix_of_prefix hother htext with hshort | hlong
    · rcases List.prefix_concat_iff.mp hshort with hwhole | hrun
      · exact absurd (by simp [hwhole]) hzero
      · exact hrun
    · exact absurd (hlong.subset (by simp)) hzero

lemma TextAt.zero_behind (h : TextAt data offset text) :
    offset < data.size ∧ ∃ i, offset ≤ i ∧ data[i]? = some 0 := by
  obtain ⟨hin, hzero⟩ := h.placed.right.getElem
  refine ⟨Nat.lt_of_le_of_lt (Nat.le_add_right _ _) hin, offset + text.toList.length,
    Nat.le_add_right _ _, ?_⟩
  rw [Array.getElem?_eq_getElem hin, hzero]

lemma exactTextRead_cstring (data : Bytes) (offset : Nat) :
    ExactTextRead data offset (cstring data offset) := by
  refine ⟨⟨?_, ?_⟩, ?_, ?_⟩
  · rintro ⟨text, h⟩
    exact (cstring_ok.mp h).zero_behind
  · rintro ⟨hin, i, hi, hzero⟩
    cases hread : cstring data offset with
    | ok text => exact ⟨text, rfl⟩
    | error e =>
      rcases cstring_error.mp hread with ⟨hout, -⟩ | ⟨-, hnone, -⟩
      · exact absurd hin (Nat.not_lt.mpr hout)
      · exact absurd hzero (hnone i hi)
  · intro text h
    exact (cstring_ok.mp h).longestRun
  · intro e h
    rcases cstring_error.mp h with ⟨hout, rfl⟩ | ⟨hin, -, rfl⟩
    · rw [if_pos hout]
    · rw [if_neg (Nat.not_le.mpr hin)]

end Texts

/-! ## Reads that add words -/

/-- The sum of two words, or nothing when it wraps. -/
def checkedAdd (a b : UInt64) : Option UInt64 :=
  if a + b < a then none else some (a + b)

/-- The difference of two words, or zero when it would wrap. -/
def saturatingSub (a b : UInt64) : UInt64 :=
  if b ≤ a then a - b else 0

def lengthWord (data : Bytes) : UInt64 := UInt64.ofNat data.size

/-- The bytes from `start` to `stop`, or nothing when these go back or go beyond the end. -/
def between? (data : Bytes) (start stop : UInt64) : Option Bytes :=
  if start ≤ stop ∧ stop ≤ lengthWord data then some (data.extract start.toNat stop.toNat) else none

def wordSlice? (data : Bytes) (offset len : UInt64) : Option Bytes :=
  (checkedAdd offset len).bind (between? data offset)

/-- The result of a read that needs `needed` bytes at `offset`, what is left taken as a word. -/
def wordChecked {α : Type} (data : Bytes) (offset needed : UInt64) : Option α → Except Error α
  | some value => .ok value
  | none =>
    .error (.truncated offset.toNat needed.toNat (saturatingSub (lengthWord data) offset).toNat)

/-- The `len` bytes at `offset`, all places computed as words. -/
def wordSlice (data : Bytes) (offset len : UInt64) : Except Error Bytes :=
  wordChecked data offset len (wordSlice? data offset len)

/-- The little-endian number of `width` octets at `offset`, all places computed as words. -/
def wordNumber {α : Type} (ofNat : Nat → α) (width : UInt64) (data : Bytes) (offset : UInt64) :
    Except Error α :=
  wordChecked data offset width
    ((wordSlice? data offset width).map fun bytes => ofNat (littleValue bytes.toList))

section Words
variable {a b c : UInt64}

/-- A sum wraps if and only if it comes out below what was added to. -/
lemma add_lt_iff : a + b < a ↔ UInt64.size ≤ a.toNat + b.toNat := by
  have ha := a.toNat_lt
  have hb := b.toNat_lt
  rw [UInt64.lt_iff_toNat_lt, UInt64.toNat_add]
  simp only [UInt64.size]
  omega

lemma checkedAdd_eq_some : checkedAdd a b = some c ↔ c.toNat = a.toNat + b.toNat := by
  unfold checkedAdd
  by_cases hwraps : a + b < a
  · rw [if_pos hwraps]
    have hc := c.toNat_lt
    rw [add_lt_iff, UInt64.size] at hwraps
    constructor
    · intro h
      cases h
    · intro h
      omega
  · rw [if_neg hwraps]
    rw [add_lt_iff, Nat.not_le] at hwraps
    rw [Option.some.injEq, ← UInt64.toNat_inj, UInt64.toNat_add, Nat.mod_eq_of_lt hwraps, eq_comm]

lemma checkedAdd_eq_none : checkedAdd a b = none ↔ UInt64.size ≤ a.toNat + b.toNat := by
  rw [← add_lt_iff, checkedAdd]
  split_ifs with hwraps <;> simp [hwraps]

lemma toNat_saturatingSub : (saturatingSub a b).toNat = a.toNat - b.toNat := by
  unfold saturatingSub
  by_cases hle : b ≤ a
  · rw [if_pos hle, UInt64.toNat_sub_of_le _ _ hle]
  · rw [if_neg hle]
    rw [UInt64.le_iff_toNat_le] at hle
    exact (Nat.sub_eq_zero_of_le (Nat.le_of_not_le hle)).symm

end Words

section Buffers
variable {data : Bytes} {offset len : UInt64}

lemma toNat_lengthWord (hdata : data.size < UInt64.size) : (lengthWord data).toNat = data.size :=
  UInt64.toNat_ofNat_of_lt' hdata

lemma between?_eq {start stop : UInt64} (hdata : data.size < UInt64.size) :
    between? data start stop = if start.toNat ≤ stop.toNat ∧ stop.toNat ≤ data.size then
      some (data.extract start.toNat stop.toNat) else none := by
  simp only [between?, UInt64.le_iff_toNat_le, toNat_lengthWord hdata]

lemma wordSlice?_eq (hdata : data.size < UInt64.size) :
    wordSlice? data offset len = Bytes.slice? data offset.toNat len.toNat := by
  rw [wordSlice?, Bytes.slice?]
  cases hsum : checkedAdd offset len with
  -- A sum that wraps would lie behind the end of any buffer.
  | none =>
    rw [checkedAdd_eq_none] at hsum
    rw [if_neg (Nat.not_le.mpr (Nat.lt_of_lt_of_le hdata hsum))]
    rfl
  | some stop =>
    rw [checkedAdd_eq_some] at hsum
    have hordered : offset.toNat ≤ stop.toNat := by
      rw [hsum]
      exact Nat.le_add_right _ _
    rw [Option.bind_some, between?_eq hdata, ← hsum]
    simp only [hordered, true_and]

lemma wordChecked_eq {α : Type} (hdata : data.size < UInt64.size) (r : Option α) :
    wordChecked data offset len r = checked data offset.toNat len.toNat r := by
  cases r with
  | some value => rfl
  | none => rw [wordChecked, checked, toNat_saturatingSub, toNat_lengthWord hdata]

lemma wordSlice_eq (hdata : data.size < UInt64.size) :
    wordSlice data offset len = slice data offset.toNat len.toNat := by
  rw [wordSlice, wordSlice?_eq hdata, wordChecked_eq hdata, slice]

lemma wordNumber_eq {α : Type} {ofNat : Nat → α} {width : UInt64}
    (hdata : data.size < UInt64.size) :
    wordNumber ofNat width data offset = checked data offset.toNat width.toNat
      ((Bytes.nat? data .little width.toNat offset.toNat).map ofNat) := by
  rw [wordNumber, wordSlice?_eq hdata, wordChecked_eq hdata, Bytes.nat?, Option.map_map]
  rfl

end Buffers

/-- The checked reads are exact at all 64-bit places and lengths, and in a buffer whose length is a
word they answer as reads that compute their places as words, each sum checked. -/
theorem checked_reads_exact (data : Bytes) (offset len : UInt64) :
    ExactRead data offset.toNat 2 (fun octets w => w.toNat = littleEndian octets)
        (u16 data offset.toNat) ∧
      ExactRead data offset.toNat 4 (fun octets w => w.toNat = littleEndian octets)
        (u32 data offset.toNat) ∧
      ExactRead data offset.toNat 8 (fun octets w => w.toNat = littleEndian octets)
        (u64 data offset.toNat) ∧
      ExactRead data offset.toNat len.toNat (fun octets bytes => bytes.toList = octets)
        (slice data offset.toNat len.toNat) ∧
      ExactTextRead data offset.toNat (cstring data offset.toNat) ∧
      (data.size < UInt64.size →
        wordNumber UInt16.ofNat 2 data offset = u16 data offset.toNat ∧
          wordNumber UInt32.ofNat 4 data offset = u32 data offset.toNat ∧
          wordNumber UInt64.ofNat 8 data offset = u64 data offset.toNat ∧
          wordSlice data offset len = slice data offset.toNat len.toNat) := by
  refine ⟨?_, ?_, ?_, ?_, ?_, fun hdata => ⟨?_, ?_, ?_, ?_⟩⟩
  · exact exactRead_number (fun n hn => UInt16.toNat_ofNat_of_lt' hn) data offset.toNat
  · exact exactRead_number (fun n hn => UInt32.toNat_ofNat_of_lt' hn) data offset.toNat
  · exact exactRead_number (fun n hn => UInt64.toNat_ofNat_of_lt' hn) data offset.toNat
  · exact exactRead_slice data offset.toNat len.toNat
  · exact exactTextRead_cstring data offset.toNat
  · exact wordNumber_eq hdata
  · exact wordNumber_eq hdata
  · exact wordNumber_eq hdata
  · exact wordSlice_eq hdata

/-- The end of this read wraps to a place inside the buffer, and the read fails nevertheless. -/
theorem checked_reads_exact_wrapping :
    (0xfffffffffffffffe + 4 : UInt64) = 2 ∧ (#[0x34, 0x12, 0] : Bytes).size < UInt64.size ∧
      wordSlice #[0x34, 0x12, 0] 0xfffffffffffffffe 4 =
        .error (.truncated 0xfffffffffffffffe 4 0) := by
  have hsize : (#[0x34, 0x12, 0] : Bytes).size < UInt64.size := by decide
  obtain ⟨-, -, -, hslice, -, hwords⟩ :=
    checked_reads_exact #[0x34, 0x12, 0] 0xfffffffffffffffe 4
  obtain ⟨-, -, -, hword⟩ := hwords hsize
  refine ⟨rfl, hsize, ?_⟩
  rw [hword]
  exact hslice.error_of_short (by decide)

end Hallmark.Proofs
