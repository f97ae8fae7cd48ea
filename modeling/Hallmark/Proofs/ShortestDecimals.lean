import Hallmark.Decimal
import Hallmark.Proofs.RoundedRatios
import Mathlib.Data.List.Basic
import Mathlib.Tactic.Ring

/-!
# Shortest decimals of hundredths

The shortest decimal of a number nearest to a whole number of hundredths is this number of
hundredths, without the zeros at its end.
-/

namespace Hallmark.Proofs
open Binary64 Decimal

/-- The number nearest to `n` hundredths. -/
def hundredths (n : Nat) : Binary64 := ofRatio n 100

/-- A number with two decimals: a whole number of hundredths, below 2^51, divided by a hundred. -/
def TwoDecimals (x : Binary64) : Prop := ∃ n < 2 ^ 51, x = (ofNat n).div (ofNat 100)

lemma TwoDecimals.hundredths {x : Binary64} (h : TwoDecimals x) :
    ∃ n < 2 ^ 51, x = hundredths n := by
  obtain ⟨n, hn, rfl⟩ := h
  exact ⟨n, hn, div_ofNat (hn.trans (by decide)) (by decide)⟩

section Hundredths
variable {n : Nat}

lemma hundred_lt_unitsInOne : 100 < unitsInOne := by
  have hdigits : 2 ^ 7 ≤ 2 ^ unitPlaces := Nat.pow_le_pow_right (by decide) (by decide)
  rw [unitsInOne_eq]
  omega

/-- A hundred times the number is less than one half away from `n`. -/
lemma hundredths_error (hn : n < fractionRange) :
    2 * (n * unitsInOne) < 2 * ((hundredths n).units * 100) + unitsInOne ∧
      2 * ((hundredths n).units * 100) < 2 * (n * unitsInOne) + unitsInOne := by
  have hrange : fractionRange < 2 ^ 53 * 100 := by decide
  have herror := units_error (hn.trans hrange)
  have hstep := step_lt hn (by decide) hundred_lt_unitsInOne
  rw [hundredths]
  omega

lemma roundDiv_hundredths (hn : n < fractionRange) :
    roundDiv ((hundredths n).units * 100) unitsInOne = n :=
  roundDiv_eq unitsInOne_pos (hundredths_error hn).2 (hundredths_error hn).1

lemma hundredths_inj {m : Nat} (hm : m < fractionRange) (hn : n < fractionRange)
    (h : hundredths m = hundredths n) : m = n := by
  rw [← roundDiv_hundredths hm, h, roundDiv_hundredths hn]

lemma unitsInOne_le_hundredths (hpos : 0 < n) (hn : n < fractionRange) :
    unitsInOne ≤ 100 * (hundredths n).units := by
  by_cases hone : n = 1
  · rw [hone]
    decide +kernel
  · have htwo : 2 * unitsInOne ≤ n * unitsInOne := Nat.mul_le_mul_right _ (by omega)
    have herror := hundredths_error hn
    omega

lemma hundredths_lt (hn : n < fractionRange) : (hundredths n).units < 10 ^ 14 * unitsInOne := by
  have hrange : fractionRange = 2 ^ 52 := by decide
  have hmost : n * unitsInOne ≤ 2 ^ 52 * unitsInOne := Nat.mul_le_mul_right _ (by omega)
  have herror := hundredths_error hn
  omega

/-! ## The decimals that are tried -/

/-- A decimal that is found reads back, at its step and right behind the number at most. -/
lemma atStep?_eq_some {x : Binary64} {e : Int} {d : Decimal} (h : atStep? x e = some d) :
    d.toBinary = x ∧ d.exponent = e ∧ d.significand * (10 ^ e.toNat * unitsInOne) ≤
      x.units * 10 ^ (-e).toNat + 10 ^ e.toNat * unitsInOne := by
  have hratio : ratio x.units (-e) = (x.units * 10 ^ (-e).toNat, 10 ^ e.toNat) := by
    rw [ratio, Int.neg_neg]
    rfl
  rw [atStep?, hratio] at h
  have hread := List.find?_some h
  have hmem := List.mem_of_find?_eq_some h
  have hneighbour : d.exponent = e ∧
      d.significand ≤ x.units * 10 ^ (-e).toNat / (10 ^ e.toNat * unitsInOne) + 1 := by
    split_ifs at hmem
    all_goals
      simp only [List.mem_cons, List.not_mem_nil, or_false] at hmem
      rcases hmem with rfl | rfl
    · exact ⟨rfl, Nat.le_succ _⟩
    · exact ⟨rfl, Nat.le_refl _⟩
    · exact ⟨rfl, Nat.le_refl _⟩
    · exact ⟨rfl, Nat.le_succ _⟩
  refine ⟨eq_of_beq hread, hneighbour.1, ?_⟩
  have hdivision := Nat.div_mul_le_self (x.units * 10 ^ (-e).toNat) (10 ^ e.toNat * unitsInOne)
  have hscaled := Nat.mul_le_mul_right (10 ^ e.toNat * unitsInOne) hneighbour.2
  rw [Nat.succ_mul] at hscaled
  omega

lemma atStep?_hundredths (hn : n < fractionRange) :
    atStep? (hundredths n) (-2) = some ⟨n, -2⟩ := by
  have hround := roundDiv_hundredths hn
  have hread : (⟨n, -2⟩ : Decimal).toBinary = hundredths n := by
    rw [toBinary, hundredths]
    congr 1
    exact Nat.mul_one n
  have hratio : ratio (hundredths n).units (-(-2)) = ((hundredths n).units * 100, 1) := rfl
  rw [atStep?, hratio]
  simp only [Nat.one_mul, hround]
  have hfirst (others : List Decimal) :
      List.find? (fun d => d.toBinary == hundredths n) (⟨n, -2⟩ :: others) = some ⟨n, -2⟩ :=
    List.find?_cons_of_pos (beq_iff_eq.mpr hread)
  -- The nearer neighbour is tried first, and `n` is the nearer one.
  rcases roundDiv_or ((hundredths n).units * 100) unitsInOne with hbelow | habove
  · rw [hround] at hbelow
    rw [if_pos hbelow, ← hbelow, hfirst]
  · rw [hround] at habove
    rw [if_neg (by omega), ← habove, hfirst]

end Hundredths

/-! ## Powers of ten -/

lemma width_le_iff {n k : Nat} (hk : 0 < k) : width n ≤ k ↔ n < 10 ^ k :=
  Nat.length_toDigits_le_iff (by decide) hk

lemma magnitude_bounds {num den : Nat} (hnum : 0 < num) (hden : 0 < den)
    (hlow : den ≤ 100 * num) (hhigh : num < 10 ^ 14 * den) :
    -2 ≤ magnitude num den ∧ magnitude num den ≤ 13 := by
  rw [magnitude]
  split_ifs with hone
  · have hwidth : width (num / den) ≤ 14 :=
      (width_le_iff (by decide)).mpr ((Nat.div_lt_iff_lt_mul hden).mpr hhigh)
    omega
  · have hwidth : width ((den - 1) / num) ≤ 2 :=
      (width_le_iff (by decide)).mpr ((Nat.div_lt_iff_lt_mul hnum).mpr (by omega))
    omega

/-! ## The shortest decimal -/

lemma ofNat_magnitudeBits {x : Binary64} (h : x.isNegative = false) :
    (⟨UInt64.ofNat x.magnitudeBits⟩ : Binary64) = x := by
  have hsign : x.bits.toNat < signBit := Nat.lt_of_not_le (of_decide_eq_false h)
  rw [magnitudeBits, Nat.mod_eq_of_lt hsign, UInt64.ofNat_toNat]

/-- The first of some steps that succeeds is not behind one that does. -/
lemma findSome?_range {α : Type} {f : Nat → Option α} {m n : Nat} (hm : m < n)
    (hf : (f m).isSome) :
    ∃ i ≤ m, ∃ a, f i = some a ∧ (List.range n).findSome? f = some a := by
  have hfound : ((List.range (m + 1)).findSome? f).isSome :=
    List.findSome?_isSome_iff.mpr ⟨m, List.mem_range.mpr (Nat.lt_succ_self m), hf⟩
  obtain ⟨a, ha⟩ := Option.isSome_iff_exists.mp hfound
  obtain ⟨i, hi, hfi⟩ := List.exists_of_findSome?_eq_some ha
  refine ⟨i, Nat.le_of_lt_succ (List.mem_range.mp hi), a, hfi, ?_⟩
  rw [show n = m + 1 + (n - (m + 1)) by omega, List.range_add, List.findSome?_append, ha]
  rfl

/-- A decimal of `n` hundredths, with two places at most. -/
structure InHundredths (n : Nat) (d : Decimal) : Prop where
  places : -2 ≤ d.exponent
  value : d.significand * 10 ^ (d.exponent + 2).toNat = n

/-- A place of a decimal in hundredths. -/
lemma ten_pow_places {e : Int} (he : -2 ≤ e) :
    10 ^ e.toNat * 10 ^ 2 = 10 ^ (e + 2).toNat * 10 ^ (-e).toNat := by
  rw [← Nat.pow_add, ← Nat.pow_add]
  congr 1
  omega

lemma InHundredths.toBinary {n : Nat} {d : Decimal} (h : InHundredths n d) :
    d.toBinary = hundredths n := by
  have hpower := ten_pow_places h.places
  refine ofRatio_congr (Nat.pow_pos (by decide)) (by decide) ?_
  rw [← h.value]
  simp only [ratio, Nat.pow_eq]
  calc d.significand * 10 ^ d.exponent.toNat * 100
      = d.significand * (10 ^ d.exponent.toNat * 10 ^ 2) := by ring
    _ = d.significand * 10 ^ (d.exponent + 2).toNat * 10 ^ (-d.exponent).toNat := by
      rw [hpower]
      ring

/-- The significand of a decimal that is found, in hundredths. -/
lemma scaled_significand_le {units significand : Nat} {e : Int} (he : -2 ≤ e)
    (h : significand * (10 ^ e.toNat * unitsInOne) ≤
      units * 10 ^ (-e).toNat + 10 ^ e.toNat * unitsInOne) :
    significand * 10 ^ (e + 2).toNat * unitsInOne ≤
      100 * units + 10 ^ (e + 2).toNat * unitsInOne := by
  have hpower := ten_pow_places he
  have hpos : 0 < 10 ^ (-e).toNat := Nat.pow_pos (by decide)
  generalize 10 ^ (-e).toNat = below at *
  generalize 10 ^ (e + 2).toNat = above at *
  generalize 10 ^ e.toNat = step at *
  refine Nat.le_of_mul_le_mul_right (c := below) ?_ hpos
  calc significand * above * unitsInOne * below
      = significand * (above * below) * unitsInOne := by ring
    _ = significand * (step * unitsInOne) * 10 ^ 2 := by rw [← hpower]; ring
    _ ≤ (units * below + step * unitsInOne) * 10 ^ 2 := Nat.mul_le_mul_right _ h
    _ = 100 * units * below + step * 10 ^ 2 * unitsInOne := by ring
    _ = (100 * units + above * unitsInOne) * below := by rw [hpower]; ring

/-- At all steps that are tried, what reads back as `n` hundredths is `n` hundredths. -/
lemma inHundredths_of_atStep? {n : Nat} {e : Int} {d : Decimal} (hn : n < 2 ^ 51) (hlow : -2 ≤ e)
    (hhigh : e ≤ 13) (h : atStep? (hundredths n) e = some d) : InHundredths n d := by
  have hrange : fractionRange = 2 ^ 52 := by decide
  obtain ⟨hread, hexponent, hsignificand⟩ := atStep?_eq_some h
  have hplaces : -2 ≤ d.exponent := by rwa [hexponent]
  have hwhole : InHundredths (d.significand * 10 ^ (d.exponent + 2).toNat) d := ⟨hplaces, rfl⟩
  have hscaled := scaled_significand_le hlow hsignificand
  rw [← hexponent] at hscaled
  have hpower : 10 ^ (d.exponent + 2).toNat ≤ 10 ^ 15 :=
    Nat.pow_le_pow_right (by decide) (by omega)
  -- What is found is off by one step at most. With less than 2^51 hundredths and steps of 10^13
  -- it stays in the range where different hundredths are different numbers.
  have hvalue : d.significand * 10 ^ (d.exponent + 2).toNat < fractionRange := by
    refine Nat.lt_of_mul_lt_mul_right (a := unitsInOne) ?_
    have hhalf := (hundredths_error (show n < fractionRange by omega)).2
    have hnumber : n * unitsInOne ≤ 2 ^ 51 * unitsInOne := Nat.mul_le_mul_right _ hn.le
    have hslack := Nat.mul_le_mul_right unitsInOne hpower
    have hone := unitsInOne_pos
    rw [hrange]
    omega
  exact ⟨hplaces, hundredths_inj hvalue (by omega) (hwhole.toBinary.symm.trans hread)⟩

/-- The shortest decimal of hundredths is this number of hundredths. -/
theorem shortest_hundredths {n : Nat} (hpos : 0 < n) (hn : n < 2 ^ 51) :
    InHundredths n (shortest (hundredths n)) := by
  have hrange : fractionRange = 2 ^ 52 := by decide
  have hsmall : n < fractionRange := by omega
  have hone := unitsInOne_pos
  have hlow := unitsInOne_le_hundredths hpos hsmall
  obtain ⟨hleast, hmost⟩ := magnitude_bounds (by omega) hone hlow (hundredths_lt hsmall)
  have habsolute : (⟨UInt64.ofNat (hundredths n).magnitudeBits⟩ : Binary64) = hundredths n :=
    ofNat_magnitudeBits (isNegative_ofRatio n 100)
  rw [shortest, habsolute]
  generalize magnitude (hundredths n).units unitsInOne = top at *
  obtain ⟨i, hi, d, hfound, hfirst⟩ : ∃ i ≤ (top + 2).toNat, ∃ d,
      atStep? (hundredths n) (top - i) = some d ∧
        (List.range 17).findSome? (fun (i : Nat) => atStep? (hundredths n) (top - i)) = some d := by
    refine findSome?_range (by omega) ?_
    rw [show top - ((top + 2).toNat : Int) = -2 by omega, atStep?_hundredths hsmall]
    rfl
  simp only [hfirst, Option.getD_some]
  exact inHundredths_of_atStep? hn (by omega) (by omega) hfound

end Hallmark.Proofs
