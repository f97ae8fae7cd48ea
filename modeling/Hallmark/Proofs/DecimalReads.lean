import Hallmark.Proofs.JsonNumbers
import Hallmark.Proofs.ShortestDecimals
import Mathlib.Data.Nat.Factorization.Basic

/-!
# Decimals in JSON texts

A number in plain digits is read as the number nearest to it. A number with two decimals is written
in plain digits, and so it is read back.
-/

namespace Hallmark.Proofs
open Json Binary64 Decimal

/-! ## Runs of digits -/

section Runs
variable {run : List Char}

lemma digitsValue_append (first second : List Char) : Number.digitsValue (first ++ second) =
    10 ^ second.length * Number.digitsValue first + Number.digitsValue second := by
  refine Nat.ofDigitChars_append 0 |>.trans ?_
  rw [Nat.ofDigitChars_eq_ofDigitChars_zero]
  rfl

lemma le_ofDigitChars (first : Nat) (run : List Char) : first ≤ Nat.ofDigitChars 10 run first := by
  rw [Nat.ofDigitChars_eq_ofDigitChars_zero]
  exact (Nat.le_mul_of_pos_left first (Nat.pow_pos (by decide))).trans (Nat.le_add_right _ _)

lemma extend_of_lt (first : Nat) (hfits : Nat.ofDigitChars 10 run first < UInt64.size) :
    Number.extend first run = (Nat.ofDigitChars 10 run first, []) := by
  induction run generalizing first with
  | nil => rfl
  | cons c run ih =>
    rw [Nat.ofDigitChars_cons] at hfits ⊢
    have hnext : first * 10 + Number.digitValue c = 10 * first + (c.toNat - '0'.toNat) := by
      rw [Nat.mul_comm]
      rfl
    have hless : 10 * first + (c.toNat - '0'.toNat) < UInt64.size :=
      (le_ofDigitChars _ run).trans_lt hfits
    rw [Number.extend]
    simp only [hnext, if_pos hless]
    exact ih _ hfits

end Runs

/-! ## Plain digits -/

/-- A number that is written in plain digits with a fraction, of which fifteen digits at most. -/
structure PlainDigits (n : Number) : Prop where
  proper : ProperNumber n
  positive : n.negative = false
  exponent : n.exponent = none
  fraction : n.fraction ≠ []
  places : n.fraction.length ≤ 15
  value : Number.digitsValue (n.whole ++ n.fraction) < 2 ^ 53

lemma significand_plain {n : Number} (h : PlainDigits n) : n.significand =
    (Number.digitsValue (n.whole ++ n.fraction), -(n.fraction.length : Int)) := by
  have hsize : 2 ^ 53 < UInt64.size := by decide
  have hfits := h.value.trans hsize
  have hall : Nat.ofDigitChars 10 n.fraction (Nat.ofDigitChars 10 n.whole 0) =
      Number.digitsValue (n.whole ++ n.fraction) := (Nat.ofDigitChars_append 0).symm
  have hwhole : Nat.ofDigitChars 10 n.whole 0 < UInt64.size :=
    (le_ofDigitChars _ n.fraction).trans_lt (hall ▸ hfits)
  rw [Number.significand, extend_of_lt 0 hwhole]
  simp only [extend_of_lt _ (hall ▸ hfits), hall]
  simp

/-- A number in plain digits is read as the number nearest to it. -/
theorem binary?_plain {n : Number} (h : PlainDigits n) :
    n.binary? = some (ofRatio (Number.digitsValue (n.whole ++ n.fraction))
      (10 ^ n.fraction.length)) := by
  have hlength : 0 < n.fraction.length := List.length_pos_of_ne_nil h.fraction
  have hpower : 10 ^ n.fraction.length < 2 ^ 53 :=
    Nat.lt_of_le_of_lt (Nat.pow_le_pow_right (by decide) h.places) (by decide)
  have hdivide : Number.divideBy (ofNat (Number.digitsValue (n.whole ++ n.fraction)))
      n.fraction.length =
        ofRatio (Number.digitsValue (n.whole ++ n.fraction)) (10 ^ n.fraction.length) := by
    rw [Number.divideBy, if_pos (by have := h.places; omega)]
    exact div_ofNat h.value hpower
  rw [Number.binary?, Number.magnitude?, significand_plain h, h.exponent, h.positive]
  simp only [Number.scaled?]
  rw [if_pos (by omega), Int.natAbs_neg, Int.natAbs_natCast, hdivide]
  rfl

/-! ## Hundredths in writing -/

section Digits
variable {t z : Nat}

lemma toDigits_mul_ten_pow (hpos : 0 < t) (z : Nat) :
    Nat.toDigits 10 (t * 10 ^ z) = Nat.toDigits 10 t ++ List.replicate z '0' := by
  induction z with
  | zero => rw [Nat.pow_zero, Nat.mul_one, List.replicate_zero, List.append_nil]
  | succ z ih =>
    have hscaled : 0 < t * 10 ^ z := Nat.mul_pos hpos (Nat.pow_pos (by decide))
    have hnext : t * 10 ^ (z + 1) = t * 10 ^ z * 10 := by rw [Nat.pow_succ, Nat.mul_assoc]
    rw [hnext, Nat.toDigits_of_base_le (by decide) (by omega), Nat.mul_div_cancel _ (by decide),
      Nat.mul_mod_left, ih, List.append_assoc, List.replicate_succ']
    rfl

lemma digitChar_ne_zero {d : Nat} (hd : d < 10) (hne : d ≠ 0) : d.digitChar ≠ '0' := by
  interval_cases d <;> first | exact absurd rfl hne | decide

lemma toDigits_last (n : Nat) : ∃ front, Nat.toDigits 10 n = front ++ [(n % 10).digitChar] := by
  rcases Nat.lt_or_ge n 10 with hsmall | hlarge
  · exact ⟨[], by rw [Nat.toDigits_of_lt_base hsmall, Nat.mod_eq_of_lt hsmall, List.nil_append]⟩
  · exact ⟨_, Nat.toDigits_of_base_le (by decide) hlarge⟩

/-- The zeros at the end of a number are counted. -/
lemma trimmed_mul_ten_pow (ht : t % 10 ≠ 0) (z : Nat) :
    Number.trimmed (t * 10 ^ z) = (Nat.toDigits 10 t, z) := by
  have hzeros : ∀ c ∈ List.replicate z '0', decide (c = '0') = true :=
    fun c hc => decide_eq_true (List.eq_of_mem_replicate hc)
  have hkept : (Nat.toDigits 10 t).reverse.dropWhile (· = '0') = (Nat.toDigits 10 t).reverse := by
    obtain ⟨front, hlast⟩ := toDigits_last t
    have hdigit := digitChar_ne_zero (Nat.mod_lt t (by decide)) ht
    rw [hlast, List.reverse_append, List.reverse_singleton, List.singleton_append,
      List.dropWhile_cons_of_neg (by simpa using hdigit)]
  rw [Number.trimmed, toDigits_mul_ten_pow (by omega)]
  simp only [List.reverse_append, List.reverse_replicate, List.dropWhile_append_of_pos hzeros,
    hkept, List.reverse_reverse, List.length_append, List.length_replicate, Nat.add_sub_cancel_left]

end Digits

/-- The digits behind the point of `n` hundredths: two, or one when the second is zero. -/
def decimals (n : Nat) : List Char :=
  if n % 10 = 0 then [(n / 10 % 10).digitChar]
  else [(n / 10 % 10).digitChar, (n % 10).digitChar]

/-- `n` hundredths in plain digits. -/
def inDecimals (n : Nat) : Number := ⟨false, Nat.toDigits 10 (n / 100), decimals n, none⟩

section Layout
variable {t k : Nat}

lemma layout_inside {whole fraction : List Char} (hwhole : whole ≠ []) (hfraction : fraction ≠ [])
    (hlength : whole.length ≤ 16) :
    Number.layout (whole ++ fraction) (-(fraction.length : Int)) =
      ⟨false, whole, fraction, none⟩ := by
  have hfirst := List.length_pos_of_ne_nil hwhole
  have hlast := List.length_pos_of_ne_nil hfraction
  have hpoint : (((whole ++ fraction).length : Int) + -(fraction.length : Int)) = whole.length := by
    rw [List.length_append]
    omega
  rw [Number.layout]
  simp only [hpoint, Int.toNat_natCast, List.take_left, List.drop_left]
  rw [if_neg (by omega), if_pos (by omega)]

lemma layout_front {digits : List Char} {e : Int} (hdigits : digits ≠ [])
    (hpoint : digits.length + e ≤ 0) (he : -2 ≤ e) :
    Number.layout digits e =
      ⟨false, ['0'], List.replicate (-(digits.length + e)).toNat '0' ++ digits, none⟩ := by
  have hlength := List.length_pos_of_ne_nil hdigits
  rw [Number.layout, if_neg (by omega), if_neg (by omega), if_pos (by omega)]

lemma layout_whole {digits : List Char} {e : Int} (he : 0 ≤ e) (hpoint : digits.length + e ≤ 16) :
    Number.layout digits e =
      ⟨false, digits ++ List.replicate e.toNat '0', ['0'], none⟩ := by
  rw [Number.layout, if_pos ⟨he, hpoint⟩]

/-- Tenths are laid out with one decimal. -/
lemma layout_one_place (hlength : (Nat.toDigits 10 t).length ≤ 16) :
    Number.layout (Nat.toDigits 10 t) (-1) = inDecimals (t * 10) := by
  have hdecimals : decimals (t * 10) = [(t % 10).digitChar] := by
    rw [decimals, if_pos (Nat.mul_mod_left t 10), Nat.mul_div_cancel _ (by decide)]
  have hwhole : t * 10 / 100 = t / 10 := by omega
  rw [inDecimals, hdecimals, hwhole]
  rcases Nat.lt_or_ge t 10 with hsmall | hlarge
  · rw [Nat.toDigits_of_lt_base hsmall, Nat.div_eq_of_lt hsmall, Nat.mod_eq_of_lt hsmall]
    exact layout_front (List.cons_ne_nil _ _) (by simp) (by decide)
  · have hlast := Nat.toDigits_of_base_le (b := 10) (by decide) hlarge
    rw [hlast, List.length_append] at hlength
    rw [hlast]
    exact layout_inside Nat.toDigits_ne_nil (List.cons_ne_nil _ _) (by omega)

/-- Hundredths are laid out with two decimals. -/
lemma layout_two_places (ht : t % 10 ≠ 0) (hlength : (Nat.toDigits 10 t).length ≤ 16) :
    Number.layout (Nat.toDigits 10 t) (-2) = inDecimals t := by
  rw [inDecimals, decimals, if_neg ht]
  rcases Nat.lt_or_ge t 10 with hdigit | hlarge
  · have hnone : t / 10 % 10 = 0 := by omega
    rw [Nat.toDigits_of_lt_base hdigit, Nat.div_eq_of_lt (by omega), hnone,
      Nat.mod_eq_of_lt hdigit]
    exact layout_front (List.cons_ne_nil _ _) (by simp) (by decide)
  have hlast := Nat.toDigits_of_base_le (b := 10) (by decide) hlarge
  rcases Nat.lt_or_ge t 100 with hsmall | hmore
  · have htens : t / 10 < 10 := by omega
    rw [hlast, Nat.toDigits_of_lt_base htens, Nat.div_eq_of_lt hsmall, Nat.mod_eq_of_lt htens]
    exact layout_front (List.cons_ne_nil _ _) (by simp) (by decide)
  · have htens := Nat.toDigits_of_base_le (b := 10) (n := t / 10) (by decide) (by omega)
    rw [Nat.div_div_eq_div_mul] at htens
    rw [hlast, htens, List.append_assoc, List.length_append] at hlength
    rw [hlast, htens, List.append_assoc]
    exact layout_inside Nat.toDigits_ne_nil (List.cons_ne_nil _ _) (by omega)

/-- The digits of hundredths are laid out in plain digits. -/
lemma layout_hundredths (ht : t % 10 ≠ 0) (hsmall : t * 10 ^ k < 2 ^ 51) :
    Number.layout (Nat.toDigits 10 t) ((k : Int) - 2) = inDecimals (t * 10 ^ k) := by
  have hlength : (Nat.toDigits 10 t).length + k ≤ 16 := by
    have hwidth : (Nat.toDigits 10 (t * 10 ^ k)).length ≤ 16 :=
      (Nat.length_toDigits_le_iff (by decide) (by decide)).mpr (hsmall.trans (by decide))
    rwa [toDigits_mul_ten_pow (by omega), List.length_append, List.length_replicate] at hwidth
  -- The zeros that were cut off move the point: over two decimals, over one, or behind the digits.
  match k with
  | 0 =>
    rw [Nat.pow_zero, Nat.mul_one]
    exact layout_two_places ht (by omega)
  | 1 =>
    rw [Nat.pow_one]
    exact layout_one_place (by omega)
  | k + 2 =>
    have hhundreds : t * 10 ^ (k + 2) = t * 10 ^ k * 100 := by rw [Nat.pow_add, Nat.mul_assoc]
    have hdecimals : decimals (t * 10 ^ k * 100) = ['0'] := by
      have hlast : t * 10 ^ k * 100 % 10 = 0 := by omega
      have hfirst : t * 10 ^ k * 100 / 10 % 10 = 0 := by omega
      rw [decimals, if_pos hlast, hfirst]
      rfl
    rw [layout_whole (by omega) (by omega), inDecimals, hhundreds, hdecimals,
      Nat.mul_div_cancel _ (by decide), toDigits_mul_ten_pow (by omega)]
    congr 3
    omega

end Layout

/-- Hundredths are written in plain digits, without a second decimal when it is zero. -/
theorem ofBinary_hundredths {n : Nat} (hn : n < 2 ^ 51) :
    Number.ofBinary (hundredths n) = inDecimals n := by
  have hsign : (hundredths n).isNegative = false := by rw [hundredths, isNegative_ofRatio]
  rcases Nat.eq_zero_or_pos n with rfl | hpos
  · have hzero : (hundredths 0).units = 0 := by
      rw [hundredths]
      exact units_ofRatio_zero (by decide)
    rw [Number.ofBinary, if_pos hzero, hsign]
    rfl
  · have hunits : (hundredths n).units ≠ 0 := by
      have hrange : fractionRange = 2 ^ 52 := by decide
      have hlow := unitsInOne_le_hundredths hpos (by omega)
      have hone := unitsInOne_pos
      omega
    have hshortest := shortest_hundredths hpos hn
    rw [Number.ofBinary, if_neg hunits, hsign]
    generalize shortest (hundredths n) = d at hshortest ⊢
    have hplaces := hshortest.places
    have hvalue := hshortest.value
    have hsignificand : d.significand ≠ 0 := by
      intro hzero
      rw [hzero, Nat.zero_mul] at hvalue
      omega
    obtain ⟨z, t, ht, hdigits⟩ := Nat.exists_eq_pow_mul_and_not_dvd hsignificand 10 (by decide)
    rw [Nat.mul_comm] at hdigits
    have hlast : t % 10 ≠ 0 := fun hzero => ht (Nat.dvd_of_mod_eq_zero hzero)
    have hnumber : t * 10 ^ (z + (d.exponent + 2).toNat) = n := by
      rw [Nat.pow_add, ← Nat.mul_assoc, ← hdigits, hvalue]
    have hexponent : d.exponent + z = ((z + (d.exponent + 2).toNat : Nat) : Int) - 2 := by omega
    have htrimmed := trimmed_mul_ten_pow hlast z
    have hlayout := layout_hundredths hlast (hnumber ▸ hn)
    rw [hnumber, ← hexponent] at hlayout
    simp only [hdigits, htrimmed, hlayout]
    rfl

example : [613, 580, 100, 7, 0].map (fun n => (inDecimals n).text) =
    ["6.13".toList, "5.8".toList, "1.0".toList, "0.07".toList, "0.0".toList] := by decide

lemma value_inDecimals (n : Nat) :
    Number.digitsValue ((inDecimals n).whole ++ (inDecimals n).fraction) * 100 =
      n * 10 ^ (inDecimals n).fraction.length := by
  have hdigit (d : Nat) (hd : d < 10) : Number.digitsValue [d.digitChar] = d := by
    interval_cases d <;> rfl
  have htens := hdigit (n / 10 % 10) (Nat.mod_lt _ (by decide))
  have hones := hdigit (n % 10) (Nat.mod_lt _ (by decide))
  rw [inDecimals, decimals]
  dsimp only
  rw [digitsValue_append, digitsValue_toDigits]
  split_ifs with hlast
  · rw [htens, List.length_singleton]
    omega
  · have hboth : Number.digitsValue [(n / 10 % 10).digitChar, (n % 10).digitChar] =
        10 ^ 1 * (n / 10 % 10) + n % 10 := by
      rw [← List.singleton_append, digitsValue_append, htens, hones, List.length_singleton]
    rw [hboth, show [(n / 10 % 10).digitChar, (n % 10).digitChar].length = 2 from rfl]
    omega

lemma length_decimals (n : Nat) : 1 ≤ (decimals n).length ∧ (decimals n).length ≤ 2 := by
  rw [decimals]
  split_ifs <;> exact ⟨by simp, by simp⟩

lemma allDigits_decimals (n : Nat) : AllDigits (decimals n) := by
  have hdigit (d : Nat) (hd : d < 10) : d.digitChar.isDigit = true := by
    interval_cases d <;> rfl
  intro c hc
  rw [decimals] at hc
  split_ifs at hc
  all_goals
    simp only [List.mem_cons, List.not_mem_nil, or_false] at hc
  · exact hc ▸ hdigit _ (Nat.mod_lt _ (by decide))
  · rcases hc with rfl | rfl <;> exact hdigit _ (Nat.mod_lt _ (by decide))

lemma properNumber_inDecimals (n : Nat) : ProperNumber (inDecimals n) :=
  have hwhole := properNumber_ofNat (n / 100)
  ⟨hwhole.whole, hwhole.digits, hwhole.leading, allDigits_decimals n, fun _ h => by cases h⟩

lemma plainDigits_inDecimals {n : Nat} (hn : n < 2 ^ 51) : PlainDigits (inDecimals n) := by
  obtain ⟨hleast, hmost⟩ := length_decimals n
  refine ⟨properNumber_inDecimals n, rfl, rfl, List.ne_nil_of_length_pos hleast,
    hmost.trans (by decide), ?_⟩
  have hvalue := value_inDecimals n
  have hpower : 10 ^ (inDecimals n).fraction.length ≤ 10 ^ 2 :=
    Nat.pow_le_pow_right (by decide) hmost
  have hbound := Nat.mul_le_mul_left n hpower
  omega

/-- A number with two decimals is read back from its shortest decimal. -/
theorem binary?_ofBinary {x : Binary64} (h : TwoDecimals x) :
    (Number.ofBinary x).binary? = some x := by
  obtain ⟨n, hn, rfl⟩ := h.hundredths
  rw [ofBinary_hundredths hn, binary?_plain (plainDigits_inDecimals hn), hundredths,
    ofRatio_congr (Nat.pow_pos (by decide)) (by decide) (value_inDecimals n)]

end Hallmark.Proofs
