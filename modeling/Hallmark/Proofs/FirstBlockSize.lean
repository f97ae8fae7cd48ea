import Hallmark.Proofs.BlockSizeSearch

/-!
# The first block size

A search starts with the least block size whose sixty-four blocks cover the stated length. The loop
that finds it compares products that may saturate with a length and doubles a word, but neither the
loop nor any later pass of the search leaves the range of a word.
-/

namespace Hallmark.Proofs
open FuzzyHash

/-- The loop that looks for the first block size has come to `size` after `n` turns. -/
inductive GrowsTo (len : UInt64) : Nat → UInt64 → Prop
  | start : GrowsTo len 0 minBlockSize
  | turn {n : Nat} {size : UInt64} : GrowsTo len n size → saturatingMul size 64 < len →
      GrowsTo len (n + 1) (size * 2)

section Doubling
variable {size : UInt64} {k : Nat}

/-- The double of a block size fits in a word. -/
lemma toNat_double (hsize : size.toNat = blockSize k) (hk : k ≤ 57) :
    (size * 2).toNat = 2 * size.toNat := by
  have hle := blockSize_mono hk
  have htop : blockSize 57 = 432345564227567616 := rfl
  have htwo : (2 : UInt64).toNat = 2 := rfl
  rw [UInt64.toNat_mul, htwo, Nat.mul_comm]
  apply Nat.mod_eq_of_lt
  omega

lemma toNat_ofNat_blockSize (hk : k ≤ 57) : (UInt64.ofNat (blockSize k)).toNat = blockSize k := by
  have hle := blockSize_mono hk
  have htop : blockSize 57 < 2 ^ 64 := by decide
  exact UInt64.toNat_ofNat_of_lt' (hle.trans_lt htop)

end Doubling

section Loop
variable {len size : UInt64} {n K : Nat}

/-- The loop goes on as long as the length is not covered. -/
lemma growsTo_of_lt (hn : n ≤ 57) (h : ∀ j < n, 64 * blockSize j < len.toNat) :
    GrowsTo len n (UInt64.ofNat (blockSize n)) := by
  induction n with
  | zero => exact .start
  | succ n ih =>
    have hsize := toNat_ofNat_blockSize (show n ≤ 57 by omega)
    have hdouble : UInt64.ofNat (blockSize (n + 1)) = UInt64.ofNat (blockSize n) * 2 := by
      apply UInt64.toNat_inj.mp
      rw [toNat_ofNat_blockSize hn, toNat_double hsize (by omega), hsize, blockSize_succ]
    rw [hdouble]
    apply GrowsTo.turn
    · exact ih (by omega) fun j hj => h j (by omega)
    · rw [saturatingMul_lt_iff, hsize]
      exact h n (Nat.lt_succ_self n)

/-- The sizes that the loop comes to are those up to one that covers the length. -/
lemma GrowsTo.size_eq (h : GrowsTo len n size) (hK : K ≤ 57)
    (hcover : len.toNat ≤ 64 * blockSize K) : n ≤ K ∧ size.toNat = blockSize n := by
  induction h with
  | start => exact ⟨Nat.zero_le K, rfl⟩
  | @turn n size _ hgrow ih =>
    obtain ⟨hn, hsize⟩ := ih
    rw [saturatingMul_lt_iff, hsize] at hgrow
    have hlt : n < K := by
      by_contra hle
      have hmono := blockSize_mono (Nat.not_lt.mp hle)
      omega
    refine ⟨hlt, ?_⟩
    rw [toNat_double hsize (by omega), hsize, blockSize_succ]

end Loop

/-- The loop ends after `K` turns, fifty-seven at most, with the least block size whose sixty-four
blocks cover the length. Saturation changes no comparison, and no doubling wraps, neither in the
loop nor at a block size that a search reaches from there. -/
theorem first_block_size_exact (len : UInt64) :
    ∃ K ≤ 57, GrowsTo len K (initialBlockSize len) ∧
      ¬saturatingMul (initialBlockSize len) 64 < len ∧
      (initialBlockSize len).toNat = 3 * 2 ^ K ∧
      IsLeast {b | (∃ k, b = 3 * 2 ^ k) ∧ len.toNat ≤ 64 * b} (initialBlockSize len).toNat ∧
      (∀ size, saturatingMul size 64 < len ↔ 64 * size.toNat < len.toNat) ∧
      (∀ n size, GrowsTo len n size →
        n ≤ K ∧ size.toNat = 3 * 2 ^ n ∧ (size * 2).toNat = 2 * size.toNat) ∧
      ∀ s n u, Reaches ⟨initialBlockSize len, .fresh, s⟩ n u →
        (u.size * 2).toNat = 2 * u.size.toNat ∧
          (¬u.size < minBlockSize → ∃ j ≤ K, u.size.toNat = 3 * 2 ^ j) := by
  obtain ⟨K, hK, hsize, hcover, hless⟩ := initialBlockSize_spec len
  have hword : initialBlockSize len = UInt64.ofNat (blockSize K) := by
    apply UInt64.toNat_inj.mp
    rw [hsize, toNat_ofNat_blockSize hK]
  refine ⟨K, hK, ?_, ?_, hsize, ⟨⟨⟨K, hsize⟩, ?_⟩, ?_⟩, fun size => saturatingMul_lt_iff size len,
    ?_, ?_⟩
  · rw [hword]
    exact growsTo_of_lt hK hless
  · rw [saturatingMul_lt_iff, hsize]
    exact Nat.not_lt.mpr hcover
  · rw [hsize]
    exact hcover
  · rintro b ⟨⟨k, rfl⟩, hk⟩
    rw [hsize]
    apply blockSize_mono
    by_contra hlt
    exact absurd (hless k (Nat.not_le.mp hlt)) (Nat.not_lt.mpr hk)
  · intro n size hgrows
    obtain ⟨hn, hval⟩ := hgrows.size_eq hK hcover
    exact ⟨hn, hval, toNat_double hval (hn.trans hK)⟩
  · intro s n u hreach
    rcases reaches_size hsize hreach with ⟨hn, hval⟩ | ⟨-, hone⟩
    · have hj : K - n ≤ K := Nat.sub_le K n
      exact ⟨toNat_double hval (hj.trans hK), fun _ => ⟨K - n, hj, hval⟩⟩
    · rw [hone]
      exact ⟨rfl, fun hlarge => absurd (by decide) hlarge⟩

/-- At the end of the range the loop takes all of its turns and the last product saturates. -/
theorem first_block_size_of_longest :
    GrowsTo 0xffffffffffffffff 57 (initialBlockSize 0xffffffffffffffff) ∧
      2 ^ 64 ≤ 64 * (initialBlockSize 0xffffffffffffffff).toNat := by
  obtain ⟨K, hK, hgrows, -, hsize, ⟨⟨-, hcover⟩, -⟩, -⟩ :=
    first_block_size_exact 0xffffffffffffffff
  have hlen : (0xffffffffffffffff : UInt64).toNat = 18446744073709551615 := rfl
  have hlast : K = 57 := by
    by_contra hne
    have hmono := blockSize_mono (show K ≤ 56 by omega)
    have htop : blockSize 56 = 216172782113783808 := rfl
    rw [hlen, hsize, ← blockSize] at hcover
    omega
  subst hlast
  refine ⟨hgrows, ?_⟩
  rw [hsize]
  decide

end Hallmark.Proofs
