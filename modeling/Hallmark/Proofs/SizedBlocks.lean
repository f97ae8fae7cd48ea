import Hallmark.Pe.VersionStrings
import Hallmark.Proofs.PlacedBytes
import Mathlib.Data.List.Forall2

/-!
# Blocks that state their size

Blocks that follow each other, each with zeros behind it that its stated length may count or leave
out. They are found again one by one, with or without their zeros, even if those of the last one
are missing.
-/

namespace Hallmark.Proofs
open Pe Pe.VersionStrings

/-- A block that starts with its length, and the number of zeros behind it. -/
structure SizedBlock where
  content : List UInt8
  padding : Nat
  counted : Bool

namespace SizedBlock
variable (b : SizedBlock)

/-- The number of zeros that the length counts. -/
def counts : Nat := if b.counted then b.padding else 0

def length : Nat := 2 + b.content.length + b.counts

/-- The block without the zeros behind it. -/
def core : List UInt8 := littleOctets 2 b.length ++ b.content

/-- The padding consists of whole zero words, and the length fits in a word. -/
structure Writable : Prop where
  fits : b.length < 2 ^ 16
  even : 2 ∣ b.padding

/-- What is found of a block: it may have lost its zeros. -/
def FoundAs (found : Bytes) : Prop :=
  ∃ n, (n = 0 ∨ n = b.padding) ∧ found.toList = b.core ++ zeros n

lemma length_core : b.core.length = 2 + b.content.length := by
  rw [core, List.length_append, length_littleOctets]

lemma length_eq : b.length = b.core.length + b.counts := by
  rw [length_core, length]

end SizedBlock

/-- Blocks one behind the other, without the zeros behind the last one. -/
def joined : List SizedBlock → List UInt8
  | [] => []
  | [b] => b.core
  | b :: c :: bs => b.core ++ zeros b.padding ++ joined (c :: bs)

def lastPadding : List SizedBlock → Nat
  | [] => 0
  | [b] => b.padding
  | _ :: c :: bs => lastPadding (c :: bs)

section Blocks
variable {data : Bytes} {offset : Nat} {rest : List UInt8}

lemma inside_of_u16? {word : UInt16} (h : Bytes.u16? data offset = some word) :
    offset + 2 ≤ data.size := by
  by_contra hout
  simp [Bytes.u16?, Bytes.nat?, Bytes.slice?, hout] at h

lemma blocks_of_none (h : Bytes.u16? data offset = none) : blocks data offset = [] := by
  rw [blocks]
  split
  · rfl
  · next hsome => simp [h] at hsome

lemma blocks_of_some {length : UInt16} (h : Bytes.u16? data offset = some length) :
    blocks data offset =
      if length = 0 then blocks data (offset + 2)
      else data.extract offset (offset + length.toNat) :: blocks data (offset + length.toNat) := by
  rw [blocks]
  split
  · next hnone => simp [h] at hnone
  · next found hfound =>
    obtain rfl : found = length := Option.some.inj (hfound.symm.trans h)
    rfl

lemma blocks_end (h : data.size < offset + 2) : blocks data offset = [] := by
  refine blocks_of_none (Option.eq_none_iff_forall_ne_some.mpr fun word hword => ?_)
  exact absurd (inside_of_u16? hword) (Nat.not_le.mpr h)

lemma blocks_zeros {n : Nat} (hn : 2 ∣ n) (h : Ends data offset (zeros n ++ rest)) :
    blocks data offset = blocks data (offset + n) := by
  obtain ⟨k, rfl⟩ := hn
  induction k generalizing offset with
  | zero => rfl
  | succ k ih =>
    have hsplit : zeros (2 * (k + 1)) = littleOctets 2 0 ++ zeros (2 * k) := by
      rw [Nat.mul_succ, Nat.add_comm, zeros_add]
      rfl
    rw [hsplit, List.append_assoc] at h
    have hzero : Bytes.u16? data offset = some 0 := h.left.u16? (by decide)
    have hnext := ih h.right
    rw [length_littleOctets] at hnext
    rw [blocks_of_some hzero, if_pos rfl, hnext, Nat.add_assoc, Nat.mul_succ, Nat.add_comm 2]

section Step
variable {b : SizedBlock} {n : Nat}

/-- As much of the zeros belongs to the block as its length counts, if they are there. -/
lemma take_counts (hn : n = b.padding ∨ n = 0 ∧ rest = []) :
    ∃ m, (m = 0 ∨ m = b.padding) ∧ (zeros n ++ rest).take b.counts = zeros m := by
  cases hcounted : b.counted with
  | false => exact ⟨0, .inl rfl, by simp [SizedBlock.counts, hcounted, zeros]⟩
  | true =>
    have hcounts : b.counts = b.padding := by rw [SizedBlock.counts, if_pos hcounted]
    obtain rfl | ⟨rfl, rfl⟩ := hn
    · exact ⟨b.padding, .inr rfl, by rw [hcounts, List.take_left' (length_zeros _)]⟩
    · exact ⟨0, .inl rfl, by simp [zeros]⟩

/-- Behind a block, the search goes on behind its zeros, whether or not its length counts them. -/
lemma blocks_counts (hb : b.Writable) (hn : n = b.padding ∨ n = 0 ∧ rest = [])
    (h : Ends data offset (zeros n ++ rest)) :
    blocks data (offset + b.counts) = blocks data (offset + n) := by
  cases hcounted : b.counted with
  | false =>
    have hcounts : b.counts = 0 := by simp [SizedBlock.counts, hcounted]
    have heven : 2 ∣ n := by
      obtain rfl | ⟨rfl, -⟩ := hn
      · exact hb.even
      · exact Nat.dvd_zero 2
    rw [hcounts]
    exact blocks_zeros heven h
  | true =>
    have hcounts : b.counts = b.padding := by rw [SizedBlock.counts, if_pos hcounted]
    obtain rfl | ⟨rfl, rfl⟩ := hn
    · rw [hcounts]
    · have hsize : data.size = offset := h.size_eq
      rw [blocks_end (by omega), blocks_end (by omega)]

/-- A block is found where it stands, and the next one behind its zeros. The zeros may be missing
where the data ends. -/
lemma blocks_step (hb : b.Writable) (hn : n = b.padding ∨ n = 0 ∧ rest = [])
    (h : Ends data offset (b.core ++ (zeros n ++ rest))) :
    ∃ found, b.FoundAs found ∧
      blocks data offset = found :: blocks data (offset + b.core.length + n) := by
  have hword : Ends data offset (littleOctets 2 b.length ++ (b.content ++ (zeros n ++ rest))) := by
    rwa [SizedBlock.core, List.append_assoc] at h
  have hlength : (UInt16.ofNat b.length).toNat = b.length := UInt16.toNat_ofNat_of_lt' hb.fits
  have hne : UInt16.ofNat b.length ≠ 0 := by
    intro hzero
    rw [hzero, SizedBlock.length, UInt16.toNat_zero] at hlength
    omega
  have hfound := h.extract b.length
  obtain ⟨m, hm, hzeros⟩ := take_counts hn
  rw [b.length_eq, List.take_length_add_append, hzeros] at hfound
  rw [blocks_of_some (hword.left.u16? hb.fits), if_neg hne, hlength, b.length_eq, ← Nat.add_assoc,
    blocks_counts hb hn h.right]
  rw [← Nat.add_assoc] at hfound
  exact ⟨_, ⟨m, hm, hfound⟩, rfl⟩

end Step

/-- All blocks are found, in order. -/
theorem blocks_joined {bs : List SizedBlock} (hbs : ∀ b ∈ bs, b.Writable) {n : Nat}
    (hn : n = lastPadding bs ∨ n = 0) (h : Ends data offset (joined bs ++ zeros n)) :
    List.Forall₂ SizedBlock.FoundAs bs (blocks data offset) := by
  induction bs generalizing offset with
  | nil =>
    obtain rfl : n = 0 := by simpa [lastPadding] using hn
    have hsize : data.size = offset := h.size_eq
    rw [blocks_end (by omega)]
    exact .nil
  | cons b bs ih =>
    cases bs with
    | nil =>
      have hlast : Ends data offset (b.core ++ (zeros n ++ [])) := by
        rwa [List.append_nil]
      obtain ⟨found, hfound, hblocks⟩ := blocks_step (hbs b List.mem_cons_self)
        (hn.imp_right fun hzero => ⟨hzero, rfl⟩) hlast
      have hsize := hlast.right.size_eq
      rw [List.append_nil, length_zeros] at hsize
      rw [hblocks, blocks_end (by omega)]
      exact .cons hfound .nil
    | cons c bs =>
      rw [joined, List.append_assoc, List.append_assoc] at h
      obtain ⟨found, hfound, hblocks⟩ := blocks_step (hbs b List.mem_cons_self) (.inl rfl) h
      have hrest := h.right.right
      rw [length_zeros] at hrest
      rw [hblocks]
      exact .cons hfound (ih (fun d hd => hbs d (List.mem_cons_of_mem b hd)) hn hrest)

end Blocks
end Hallmark.Proofs
