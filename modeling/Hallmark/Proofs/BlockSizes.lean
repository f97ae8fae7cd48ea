import Hallmark.FuzzyHash.Digest
import Mathlib.Data.Nat.Basic
import Mathlib.Tactic.Lemma
import Mathlib.Tactic.NormNum

/-!
# Block sizes

The block sizes are the numbers `3 * 2^k`. The first choice is the least of them whose sixty-four
blocks cover the stated length, and neither it nor its double leaves the 64-bit range.
-/

namespace Hallmark.Proofs
open FuzzyHash

def blockSize (k : Nat) : Nat := 3 * 2 ^ k

lemma blockSize_succ (k : Nat) : blockSize (k + 1) = 2 * blockSize k := by
  simp only [blockSize, pow_succ]
  omega

lemma blockSize_pos (k : Nat) : 3 ≤ blockSize k := by
  have h : 0 < 2 ^ k := Nat.two_pow_pos k
  simp only [blockSize]
  omega

lemma blockSize_mono {j k : Nat} (h : j ≤ k) : blockSize j ≤ blockSize k :=
  Nat.mul_le_mul_left 3 (Nat.pow_le_pow_right (by decide) h)

/-- Sixty-four blocks with fifty-seven doublings are more than any 64-bit length. -/
lemma top_covers (len : UInt64) : len.toNat < 64 * blockSize 57 := by
  have h := len.toNat_lt
  have htop : blockSize 57 = 432345564227567616 := rfl
  omega

/-- Saturation does not disturb the comparison with a length. -/
lemma saturatingMul_lt_iff (size len : UInt64) :
    saturatingMul size 64 < len ↔ 64 * size.toNat < len.toNat := by
  have hlen := len.toNat_lt
  have h64 : (64 : UInt64).toNat = 64 := rfl
  unfold saturatingMul
  rw [h64, UInt64.lt_iff_toNat_lt]
  by_cases hroom : size.toNat * 64 < UInt64.size
  · rw [if_pos hroom, UInt64.toNat_mul, h64, Nat.mod_eq_of_lt hroom, Nat.mul_comm]
  · rw [if_neg hroom]
    have htop : (0xffffffffffffffff : UInt64).toNat = 2 ^ 64 - 1 := rfl
    have hsize : UInt64.size = 2 ^ 64 := rfl
    rw [htop]
    omega

/-- From a block size that may have to grow, doubling stops at the least one that covers the length. -/
lemma coveringSize_spec (len : UInt64) (doublings k : Nat) (size : UInt64)
    (hsize : size.toNat = blockSize k) (hk : k ≤ 57) (hd : 57 ≤ k + doublings) :
    ∃ K, k ≤ K ∧ K ≤ 57 ∧ (coveringSize len doublings size).toNat = blockSize K ∧
      len.toNat ≤ 64 * blockSize K ∧ ∀ j, k ≤ j → j < K → 64 * blockSize j < len.toNat := by
  have htop := top_covers len
  induction doublings generalizing k size with
  | zero =>
    obtain rfl : k = 57 := by omega
    exact ⟨57, le_refl _, le_refl _, hsize, htop.le, fun j hj hlt => by omega⟩
  | succ doublings ih =>
    rw [coveringSize]
    by_cases hgrow : saturatingMul size 64 < len
    · rw [if_pos hgrow]
      rw [saturatingMul_lt_iff, hsize] at hgrow
      have hk' : k < 57 := by
        refine lt_of_le_of_ne hk fun h => ?_
        subst h
        omega
      have hdouble : (size * 2).toNat = blockSize (k + 1) := by
        have hle := blockSize_mono (show k + 1 ≤ 57 by omega)
        have hval : blockSize 57 = 432345564227567616 := rfl
        rw [blockSize_succ] at hle ⊢
        rw [UInt64.toNat_mul, hsize, show (2 : UInt64).toNat = 2 from rfl,
          Nat.mod_eq_of_lt (by omega), Nat.mul_comm]
      obtain ⟨K, hkK, hK, hval, hcover, hleast⟩ :=
        ih (k + 1) (size * 2) hdouble (by omega) (by omega)
      refine ⟨K, by omega, hK, hval, hcover, fun j hj hlt => ?_⟩
      rcases Nat.eq_or_lt_of_le hj with rfl | hj
      · exact hgrow
      · exact hleast j hj hlt
    · rw [if_neg hgrow]
      rw [saturatingMul_lt_iff, hsize] at hgrow
      exact ⟨k, le_refl _, hk, hsize, by omega, fun j hj hlt => by omega⟩

/-- The first choice is the least block size that covers the length with sixty-four blocks. -/
lemma initialBlockSize_spec (len : UInt64) :
    ∃ K ≤ 57, (initialBlockSize len).toNat = blockSize K ∧ len.toNat ≤ 64 * blockSize K ∧
      ∀ j < K, 64 * blockSize j < len.toNat := by
  obtain ⟨K, -, hK, hval, hcover, hleast⟩ :=
    coveringSize_spec len 64 0 minBlockSize rfl (by decide) (by decide)
  exact ⟨K, hK, hval, hcover, fun j hj => hleast j (Nat.zero_le j) hj⟩

end Hallmark.Proofs
