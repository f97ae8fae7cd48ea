import Hallmark.Binary64
import Mathlib.Algebra.Order.Ring.Nat
import Mathlib.Data.Nat.Log
import Mathlib.Tactic.Linarith
import Mathlib.Tactic.Positivity

/-!
# Rounded quotients

The number nearest to a quotient, counted in units of the least positive number: a whole multiple of
its step, and no more than half a step away from the quotient.
-/

namespace Hallmark.Proofs
open Binary64

/-! ## Whole quotients -/

section Whole
variable {num den : Nat}

/-- A rounded quotient is off by half the divisor at most. -/
lemma roundDiv_error (hden : 0 < den) (num : Nat) :
    2 * num ≤ 2 * (roundDiv num den * den) + den ∧
      2 * (roundDiv num den * den) ≤ 2 * num + den := by
  have hdivision := Nat.div_add_mod' num den
  have hrest := Nat.mod_lt num hden
  rw [roundDiv]
  split_ifs with hup
  · have hnext : (num / den + 1) * den = num / den * den + den := Nat.succ_mul _ _
    omega
  · omega

lemma roundDiv_eq {q : Nat} (hden : 0 < den) (hlow : 2 * num < 2 * (q * den) + den)
    (hhigh : 2 * (q * den) < 2 * num + den) : roundDiv num den = q := by
  obtain ⟨hleast, hgreatest⟩ := roundDiv_error hden num
  rcases Nat.lt_trichotomy (roundDiv num den) q with hless | heq | hmore
  · have hstep : (roundDiv num den + 1) * den ≤ q * den := Nat.mul_le_mul_right den hless
    rw [Nat.succ_mul] at hstep
    omega
  · exact heq
  · have hstep : (q + 1) * den ≤ roundDiv num den * den := Nat.mul_le_mul_right den hmore
    rw [Nat.succ_mul] at hstep
    omega

lemma roundDiv_mul (hden : 0 < den) (q : Nat) : roundDiv (q * den) den = q :=
  roundDiv_eq hden (by omega) (by omega)

lemma roundDiv_or (num den : Nat) :
    roundDiv num den = num / den ∨ roundDiv num den = num / den + 1 := by
  rw [roundDiv]
  split_ifs
  · exact .inr rfl
  · exact .inl rfl

lemma roundDiv_mul_right {c : Nat} (hc : 0 < c) (num den : Nat) :
    roundDiv (num * c) (den * c) = roundDiv num den := by
  have hquotient : num * c / (den * c) = num / den := Nat.mul_div_mul_right num den hc
  have hrest : num * c % (den * c) = num % den * c := Nat.mul_mod_mul_right c num den
  have hless : den * c < 2 * (num % den * c) ↔ den < 2 * (num % den) := by
    rw [← Nat.mul_assoc, Nat.mul_lt_mul_right hc]
  have heq : 2 * (num % den * c) = den * c ↔ 2 * (num % den) = den := by
    rw [← Nat.mul_assoc, Nat.mul_left_inj hc.ne']
  simp only [roundDiv, hquotient, hrest, hless, heq]

end Whole

/-! ## Quotients in double precision -/

/-- The number of binary digits of the least positive number behind the point. -/
def unitPlaces : Nat := 1074

lemma unitsInOne_eq : unitsInOne = 2 ^ unitPlaces := Nat.one_shiftLeft unitPlaces

lemma unitsInOne_pos : 0 < unitsInOne := by
  rw [unitsInOne_eq]
  exact Nat.two_pow_pos unitPlaces

/-- The number of binary digits that a quotient has beyond the 53 that are kept. -/
def spareDigits (num den : Nat) : Nat := Nat.log2 (num * unitsInOne / den) - 52

/-- A quotient in steps of its last binary digit. -/
def steps (num den : Nat) : Nat := roundDiv (num * unitsInOne) (den * 2 ^ spareDigits num den)

lemma ofRatio_eq (num den : Nat) : ofRatio num den =
    ⟨UInt64.ofNat (min (spareDigits num den * fractionRange + steps num den) infinityBits)⟩ := by
  rw [ofRatio, Nat.shiftLeft_eq]
  rfl

theorem ofRatio_mul_right {c : Nat} (hc : 0 < c) (num den : Nat) :
    ofRatio (num * c) (den * c) = ofRatio num den := by
  have hspare : spareDigits (num * c) (den * c) = spareDigits num den := by
    rw [spareDigits, Nat.mul_right_comm, Nat.mul_div_mul_right _ _ hc, spareDigits]
  have hsteps : steps (num * c) (den * c) = steps num den := by
    rw [steps, hspare, Nat.mul_right_comm, Nat.mul_right_comm den, roundDiv_mul_right hc, steps]
  rw [ofRatio_eq, ofRatio_eq, hspare, hsteps]

lemma ofRatio_congr {num den num' den' : Nat} (hden : 0 < den) (hden' : 0 < den')
    (h : num * den' = num' * den) : ofRatio num den = ofRatio num' den' := by
  rw [← ofRatio_mul_right hden', h, Nat.mul_comm den, ofRatio_mul_right hden]

section Range
variable {num den : Nat}

lemma magnitudeBits_ofRatio (num den : Nat) : (ofRatio num den).magnitudeBits =
    min (spareDigits num den * fractionRange + steps num den) infinityBits := by
  have hfinite : min (spareDigits num den * fractionRange + steps num den) infinityBits <
      signBit := Nat.lt_of_le_of_lt (Nat.min_le_right _ _) (by decide)
  have hfits : signBit < UInt64.size := by decide
  rw [ofRatio_eq, magnitudeBits, UInt64.toNat_ofNat_of_lt' (hfinite.trans hfits),
    Nat.mod_eq_of_lt hfinite]

lemma isNegative_ofRatio (num den : Nat) : (ofRatio num den).isNegative = false := by
  have hle := Nat.min_le_right (spareDigits num den * fractionRange + steps num den) infinityBits
  have hfits : infinityBits < UInt64.size := by decide
  have hsign : infinityBits < signBit := by decide
  rw [ofRatio_eq, isNegative, UInt64.toNat_ofNat_of_lt' (by omega)]
  exact decide_eq_false (by omega)

lemma steps_le (hden : 0 < den) : steps num den ≤ 2 * fractionRange := by
  have hdigits : num * unitsInOne / den < 2 ^ (spareDigits num den + 53) := by
    refine Nat.lt_log2_self.trans_le (Nat.pow_le_pow_right (by decide) ?_)
    rw [spareDigits]
    omega
  have hbound : num * unitsInOne < 2 * fractionRange * (den * 2 ^ spareDigits num den) := by
    have hrange : 2 * fractionRange = 2 ^ 53 := by decide
    rw [Nat.div_lt_iff_lt_mul hden, Nat.pow_add] at hdigits
    rw [hrange]
    linarith
  have hpos : 0 < den * 2 ^ spareDigits num den := by positivity
  have hquotient := (Nat.div_lt_iff_lt_mul hpos).mpr hbound
  rcases roundDiv_or (num * unitsInOne) (den * 2 ^ spareDigits num den) with h | h
  all_goals
    rw [steps, h]
    omega

/-- A quotient with spare digits has all 53 that are kept. -/
lemma le_scaled (hden : 0 < den) (hspare : 0 < spareDigits num den) :
    fractionRange * (den * 2 ^ spareDigits num den) ≤ num * unitsInOne := by
  have hne : num * unitsInOne / den ≠ 0 := by
    intro hzero
    rw [spareDigits, hzero] at hspare
    exact absurd hspare (by decide)
  have hlog : spareDigits num den + 52 = Nat.log2 (num * unitsInOne / den) := by
    rw [spareDigits] at hspare ⊢
    omega
  have hdigits : 2 ^ (spareDigits num den + 52) ≤ num * unitsInOne / den := by
    rw [hlog]
    exact Nat.log2_self_le hne
  have hrange : fractionRange = 2 ^ 52 := by decide
  rw [Nat.le_div_iff_mul_le hden, Nat.pow_add] at hdigits
  rw [hrange]
  linarith

lemma le_steps (hden : 0 < den) (hspare : 0 < spareDigits num den) :
    fractionRange ≤ steps num den := by
  have hpos : 0 < den * 2 ^ spareDigits num den := by positivity
  have hquotient := (Nat.le_div_iff_mul_le hpos).mpr (le_scaled hden hspare)
  rcases roundDiv_or (num * unitsInOne) (den * 2 ^ spareDigits num den) with h | h
  all_goals
    rw [steps, h]
    omega

/-- The steps of a numerator of 52 digits are shorter than one over the denominator. -/
lemma step_lt (hnum : num < fractionRange) (hden : 0 < den) (hone : den < unitsInOne) :
    den * 2 ^ spareDigits num den < unitsInOne := by
  rcases Nat.eq_zero_or_pos (spareDigits num den) with hzero | hspare
  · rwa [hzero, Nat.pow_zero, Nat.mul_one]
  · have hscaled := le_scaled hden hspare
    have hless := Nat.mul_lt_mul_of_pos_right hnum unitsInOne_pos
    exact Nat.lt_of_mul_lt_mul_left (hscaled.trans_lt hless)

lemma pos_of_small (hsmall : num < 2 ^ 53 * den) : 0 < den := by
  rcases Nat.eq_zero_or_pos den with rfl | hden
  · exact absurd hsmall (Nat.not_lt_zero _)
  · exact hden

/-- The spare digits of a quotient that is not too great. -/
lemma spareDigits_le (hsmall : num < 2 ^ 53 * den) : spareDigits num den ≤ unitPlaces := by
  have hbound : num * unitsInOne / den < 2 ^ (53 + unitPlaces) := by
    rw [Nat.div_lt_iff_lt_mul (pos_of_small hsmall), Nat.pow_add, ← unitsInOne_eq,
      Nat.mul_right_comm]
    exact Nat.mul_lt_mul_of_pos_right hsmall unitsInOne_pos
  rw [spareDigits]
  by_cases hzero : num * unitsInOne / den = 0
  · rw [hzero]
    decide
  · have hlog := (Nat.log2_lt hzero).mpr hbound
    omega

/-- The bits of a number by its exponent and its fraction. -/
lemma units_of_bits {x : Binary64} {k q : Nat} (hbits : x.magnitudeBits = k * fractionRange + q)
    (hmost : q ≤ 2 * fractionRange) (hleast : 0 < k → fractionRange ≤ q) :
    x.units = q * 2 ^ k := by
  have hpos : 0 < fractionRange := by decide
  have hfields (e f : Nat) (he : k * fractionRange + q = f + fractionRange * e)
      (hf : f < fractionRange) :
      x.units = if e = 0 then f else (f + fractionRange) * 2 ^ (e - 1) := by
    rw [units, hbits, he, Nat.add_mul_div_left _ _ hpos, Nat.add_mul_mod_self_left,
      Nat.div_eq_of_lt hf, Nat.mod_eq_of_lt hf, Nat.zero_add, Nat.shiftLeft_eq]
  -- The exponent field is 0 below the normal numbers, `k + 1` with all digits in place, and `k + 2`
  -- when rounding carried into a further digit.
  rcases Nat.lt_or_ge q fractionRange with hfraction | hwhole
  · have hk : k = 0 := Nat.eq_zero_of_not_pos fun hk => absurd (hleast hk) (by omega)
    rw [hfields 0 q (by rw [hk]; omega) hfraction, if_pos rfl, hk, Nat.pow_zero, Nat.mul_one]
  rcases Nat.lt_or_ge q (2 * fractionRange) with hplain | hcarry
  · have he : k * fractionRange + q = q - fractionRange + fractionRange * (k + 1) := by
      rw [Nat.mul_succ, Nat.mul_comm k]
      omega
    rw [hfields (k + 1) (q - fractionRange) he (by omega), if_neg (Nat.succ_ne_zero k),
      Nat.sub_add_cancel hwhole, Nat.add_sub_cancel]
  · have hq : q = 2 * fractionRange := Nat.le_antisymm hmost hcarry
    have he : k * fractionRange + q = 0 + fractionRange * (k + 2) := by
      rw [hq]
      linarith
    rw [hfields (k + 2) 0 he hpos, if_neg (Nat.succ_ne_zero _), hq, Nat.zero_add,
      show k + 2 - 1 = k + 1 from rfl, Nat.pow_succ]
    linarith

/-- A rounded quotient is a whole number of its steps. -/
theorem units_ofRatio (hsmall : num < 2 ^ 53 * den) :
    (ofRatio num den).units = steps num den * 2 ^ spareDigits num den := by
  have hden := pos_of_small hsmall
  have hspare : spareDigits num den * fractionRange ≤ unitPlaces * fractionRange :=
    Nat.mul_le_mul_right _ (spareDigits_le hsmall)
  have hmost : steps num den ≤ 2 * fractionRange := steps_le hden
  have hrange : (unitPlaces + 2) * fractionRange ≤ infinityBits := by decide
  refine units_of_bits ?_ hmost (le_steps hden)
  rw [magnitudeBits_ofRatio]
  rw [Nat.add_mul] at hrange
  omega

/-- A rounded quotient is off by half a step at most. -/
theorem units_error (hsmall : num < 2 ^ 53 * den) :
    2 * (num * unitsInOne) ≤
        2 * ((ofRatio num den).units * den) + den * 2 ^ spareDigits num den ∧
      2 * ((ofRatio num den).units * den) ≤
        2 * (num * unitsInOne) + den * 2 ^ spareDigits num den := by
  have hpos : 0 < den * 2 ^ spareDigits num den :=
    Nat.mul_pos (pos_of_small hsmall) (Nat.two_pow_pos _)
  have hsteps : (ofRatio num den).units * den =
      steps num den * (den * 2 ^ spareDigits num den) := by
    rw [units_ofRatio hsmall, Nat.mul_assoc, Nat.mul_comm (2 ^ _)]
  rw [hsteps]
  exact roundDiv_error hpos (num * unitsInOne)

end Range

lemma units_ofRatio_zero {den : Nat} (hden : 0 < den) : (ofRatio 0 den).units = 0 := by
  have hstep : 0 < den * 2 ^ spareDigits 0 den := Nat.mul_pos hden (Nat.two_pow_pos _)
  have hzero : steps 0 den = 0 := by
    have hnone := roundDiv_mul hstep 0
    rwa [Nat.zero_mul, ← Nat.zero_mul unitsInOne] at hnone
  have hsmall : 0 < 2 ^ 53 * den := Nat.mul_pos (Nat.two_pow_pos 53) hden
  rw [units_ofRatio hsmall, hzero, Nat.zero_mul]

theorem units_ofNat {m : Nat} (hm : m < 2 ^ 53) : (ofNat m).units = m * unitsInOne := by
  have hsmall : m < 2 ^ 53 * 1 := by rwa [Nat.mul_one]
  obtain ⟨c, hc⟩ : 2 ^ spareDigits m 1 ∣ unitsInOne := by
    rw [unitsInOne_eq]
    exact Nat.pow_dvd_pow 2 (spareDigits_le hsmall)
  have hwhole : m * unitsInOne = m * c * 2 ^ spareDigits m 1 := by
    rw [hc, Nat.mul_assoc, Nat.mul_comm c]
  rw [ofNat, units_ofRatio hsmall, steps, Nat.one_mul, hwhole, roundDiv_mul (Nat.two_pow_pos _)]

theorem div_ofNat {m n : Nat} (hm : m < 2 ^ 53) (hn : n < 2 ^ 53) :
    (ofNat m).div (ofNat n) = ofRatio m n := by
  rw [div, units_ofNat hm, units_ofNat hn, ofRatio_mul_right unitsInOne_pos]

end Hallmark.Proofs
