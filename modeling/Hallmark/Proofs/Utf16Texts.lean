import Hallmark.Proofs.PlacedBytes
import Hallmark.Text.Utf16
import Mathlib.Data.List.TakeWhile

/-!
# Texts in UTF-16

The units of a text are decoded into its characters, and the octets of units are read as the units
that they were written for.
-/

namespace Hallmark.Proofs
open Utf16

/-! ## Characters -/

lemma decode_plain {u : UInt16} (hhigh : isHigh u = false) (hlow : isLow u = false)
    (rest : List UInt16) : decode (u :: rest) = Char.ofNat u.toNat :: decode rest := by
  cases rest with
  | nil => simp [decode, hhigh, hlow]
  | cons v rest => simp [decode, hhigh, hlow]

lemma decode_pair {u v : UInt16} (hhigh : isHigh u) (hlow : isLow v) (rest : List UInt16) :
    decode (u :: v :: rest) = pairChar u v :: decode rest := by
  rw [decode, hhigh, hlow]
  rfl

lemma toNat_unit {n : Nat} (h : n < 0x10000) : (UInt16.ofNat n).toNat = n :=
  UInt16.toNat_ofNat_of_lt' h

lemma isHigh_ofNat {n : Nat} (h : n < 0x10000) :
    isHigh (UInt16.ofNat n) = decide (0xd800 ≤ n ∧ n < 0xdc00) := by
  have hn := toNat_unit h
  simp [isHigh, UInt16.le_iff_toNat_le, UInt16.lt_iff_toNat_lt, hn]

lemma isLow_ofNat {n : Nat} (h : n < 0x10000) :
    isLow (UInt16.ofNat n) = decide (0xdc00 ≤ n ∧ n < 0xe000) := by
  have hn := toNat_unit h
  simp [isLow, UInt16.le_iff_toNat_le, UInt16.lt_iff_toNat_lt, hn]

lemma decode_encodeChar (c : Char) (rest : List UInt16) :
    decode (encodeChar c ++ rest) = c :: decode rest := by
  have hvalid : c.toNat < 0xd800 ∨ 0xdfff < c.toNat ∧ c.toNat < 0x110000 := c.valid
  have hc : Char.ofNat c.toNat = c := Char.ofNat_toNat c
  rw [encodeChar]
  split_ifs with hplain
  · -- The values of characters leave out those of halves of pairs.
    have hhigh : isHigh (UInt16.ofNat c.toNat) = false := by
      rw [isHigh_ofNat hplain, decide_eq_false_iff_not]
      omega
    have hlow : isLow (UInt16.ofNat c.toNat) = false := by
      rw [isLow_ofNat hplain, decide_eq_false_iff_not]
      omega
    rw [List.singleton_append, decode_plain hhigh hlow, toNat_unit hplain, hc]
  · generalize hhalf : (c.toNat - 0x10000) / 0x400 = high
    generalize hrest : (c.toNat - 0x10000) % 0x400 = low
    have hhigh : 0xd800 + high < 0xdc00 := by omega
    have hlow : 0xdc00 + low < 0xe000 := by omega
    have hfirst : isHigh (UInt16.ofNat (0xd800 + high)) := by
      rw [isHigh_ofNat (by omega), decide_eq_true_iff]
      omega
    have hsecond : isLow (UInt16.ofNat (0xdc00 + low)) := by
      rw [isLow_ofNat (by omega), decide_eq_true_iff]
      omega
    have hvalue : 0x10000 + (0xd800 + high - 0xd800) * 0x400 + (0xdc00 + low - 0xdc00) = c.toNat := by
      omega
    rw [List.cons_append, List.singleton_append, decode_pair hfirst hsecond, pairChar,
      toNat_unit (by omega), toNat_unit (by omega), hvalue, hc]

lemma decode_encode (s : String) : decode (encode s) = s.toList := by
  rw [encode]
  induction s.toList with
  | nil => rfl
  | cons c cs ih => rw [List.flatMap_cons, decode_encodeChar, ih]

lemma toNat_charOfNat {n : Nat} (h : n < 0xd800 ∨ 0xdfff < n ∧ n < 0x110000) :
    (Char.ofNat n).toNat = n := by
  have hvalid : n.isValidChar := h
  rw [Char.ofNat, dif_pos hvalid]
  rfl

lemma isHigh_iff {u : UInt16} : isHigh u ↔ 0xd800 ≤ u.toNat ∧ u.toNat < 0xdc00 := by
  simp [isHigh, UInt16.le_iff_toNat_le, UInt16.lt_iff_toNat_lt]

lemma isLow_iff {u : UInt16} : isLow u ↔ 0xdc00 ≤ u.toNat ∧ u.toNat < 0xe000 := by
  simp [isLow, UInt16.le_iff_toNat_le, UInt16.lt_iff_toNat_lt]

lemma encodeChar_plain {u : UInt16} (hhigh : ¬isHigh u) (hlow : ¬isLow u) :
    encodeChar (Char.ofNat u.toNat) = [u] := by
  have hu := u.toNat_lt
  rw [isHigh_iff] at hhigh
  rw [isLow_iff] at hlow
  rw [encodeChar, toNat_charOfNat (by omega), if_pos (by omega), UInt16.ofNat_toNat]

lemma encodeChar_pair {u v : UInt16} (hhigh : isHigh u) (hlow : isLow v) :
    encodeChar (pairChar u v) = [u, v] := by
  have hu := isHigh_iff.mp hhigh
  have hv := isLow_iff.mp hlow
  generalize hn : 0x10000 + (u.toNat - 0xd800) * 0x400 + (v.toNat - 0xdc00) = n
  have hfirst : 0xd800 + (n - 0x10000) / 0x400 = u.toNat := by omega
  have hsecond : 0xdc00 + (n - 0x10000) % 0x400 = v.toNat := by omega
  rw [pairChar, hn, encodeChar, toNat_charOfNat (by omega), if_neg (by omega), hfirst, hsecond,
    UInt16.ofNat_toNat, UInt16.ofNat_toNat]

/-- The units of a text without replacement characters are known from the text. -/
lemma encode_decode {us : List UInt16} (h : '\uFFFD' ∉ decode us) :
    (decode us).flatMap encodeChar = us := by
  have hplain : ∀ u : UInt16,
      (if isHigh u || isLow u then '\uFFFD' else Char.ofNat u.toNat) ≠ '\uFFFD' →
        encodeChar (if isHigh u || isLow u then '\uFFFD' else Char.ofNat u.toNat) = [u] := by
    intro u hu
    split_ifs at hu ⊢ with hhalf
    · exact absurd rfl hu
    · rw [Bool.or_eq_true, not_or] at hhalf
      exact encodeChar_plain hhalf.1 hhalf.2
  induction us using decode.induct with
  | case1 => rfl
  | case2 u =>
    rw [decode, List.mem_singleton] at h
    rw [decode, List.flatMap_singleton]
    exact hplain u (Ne.symm h)
  | case3 u v rest hpair ih =>
    rw [decode, if_pos hpair] at h ⊢
    rw [Bool.and_eq_true] at hpair
    rw [List.flatMap_cons, encodeChar_pair hpair.1 hpair.2,
      ih fun hmem => h (List.mem_cons_of_mem _ hmem)]
    rfl
  | case4 u v rest hpair ih =>
    rw [decode, if_neg hpair] at h ⊢
    rw [List.mem_cons, not_or] at h
    rw [List.flatMap_cons, hplain u (Ne.symm h.1), ih h.2]
    rfl

lemma zero_not_mem_encode {s : String} (h : '\x00' ∉ s.toList) : 0 ∉ encode s := by
  intro hmem
  obtain ⟨c, hc, hzero⟩ := List.mem_flatMap.mp hmem
  have hne : c.toNat ≠ 0 := by
    intro hnat
    have hnul : c = '\x00' := Char.toNat_inj.mp hnat
    exact h (hnul ▸ hc)
  have hvalid : c.toNat < 0xd800 ∨ 0xdfff < c.toNat ∧ c.toNat < 0x110000 := c.valid
  have hunit {n : Nat} (hn : n < 0x10000) (hunit : 0 = UInt16.ofNat n) : n = 0 := by
    rw [← toNat_unit hn, ← hunit]
    rfl
  rw [encodeChar] at hzero
  split_ifs at hzero with hplain
  · exact hne (hunit hplain (List.mem_singleton.mp hzero))
  · simp only [List.mem_cons, List.not_mem_nil, or_false] at hzero
    obtain hhigh | hlow := hzero
    · have hfirst := hunit (by omega) hhigh
      omega
    · have hsecond := hunit (by omega) hlow
      omega

/-! ## Octets -/

section Octets
variable {a b : Bytes} {us : List UInt16}

lemma u16?_append_left {i : Nat} (h : i + 2 ≤ a.size) :
    Bytes.u16? (a ++ b) i = Bytes.u16? a i := by
  have hin : i + 2 ≤ (a ++ b).size := by
    rw [Array.size_append]
    omega
  rw [Bytes.u16?, Bytes.u16?, Bytes.nat?, Bytes.nat?, Bytes.slice?, Bytes.slice?, if_pos h,
    if_pos hin, Array.extract_append, Nat.sub_eq_zero_of_le h, Array.extract_zero,
    Array.append_empty]

lemma u16?_append_right (i : Nat) : Bytes.u16? (a ++ b) (a.size + i) = Bytes.u16? b i := by
  have hin : a.size + i + 2 ≤ (a ++ b).size ↔ i + 2 ≤ b.size := by
    rw [Array.size_append]
    omega
  have hextract : (a ++ b).extract (a.size + i) (a.size + i + 2) = b.extract i (i + 2) := by
    rw [Nat.add_assoc, Array.extract_append, Nat.add_sub_cancel_left, Nat.add_sub_cancel_left,
      Array.extract_eq_empty_of_le (by omega), Array.empty_append]
  simp only [Bytes.u16?, Bytes.nat?, Bytes.slice?, hin, hextract]

lemma units_append {n : Nat} (h : a.size = 2 * n) : units (a ++ b) = units a ++ units b := by
  have hcount : (a ++ b).size / 2 = n + b.size / 2 := by
    rw [Array.size_append]
    omega
  have hleft : a.size / 2 = n := by omega
  rw [units, units, units, hcount, hleft, List.range_add, List.filterMap_append,
    List.filterMap_map]
  congr 1
  · refine List.filterMap_congr fun i hi => u16?_append_left ?_
    have hlt := List.mem_range.mp hi
    omega
  · refine List.filterMap_congr fun i _ => ?_
    rw [Function.comp_apply, Nat.mul_add, ← h, u16?_append_right]

lemma length_units (a : Bytes) : (units a).length = a.size / 2 := by
  have hsome : ∀ i ∈ List.range (a.size / 2), (Bytes.u16? a (2 * i)).isSome := by
    intro i hi
    have hin : 2 * i + 2 ≤ a.size := by
      have hlt := List.mem_range.mp hi
      omega
    simp [Bytes.u16?, Bytes.nat?, Bytes.slice?, hin]
  rw [units, List.length_filterMap_eq_countP, List.countP_eq_length.mpr hsome, List.length_range]

lemma units_extract {n : Nat} (h : 2 * n ≤ a.size) :
    units (a.extract 0 (2 * n)) = (units a).take n := by
  have hsize : (a.extract 0 (2 * n)).size = 2 * n := by
    rw [Array.size_extract]
    omega
  have hsplit : a.extract 0 (2 * n) ++ a.extract (2 * n) a.size = a := by
    rw [Array.extract_append_extract, Nat.zero_min, Nat.max_eq_right h, Array.extract_size]
  have hunits := units_append (b := a.extract (2 * n) a.size) hsize
  rw [hsplit] at hunits
  rw [hunits, List.take_left']
  rw [length_units, hsize, Nat.mul_div_cancel_left n (by decide)]

lemma size_unitsBeforeNul (a : Bytes) : 2 * (unitsBeforeNul a).length ≤ a.size := by
  have hle := (List.takeWhile_prefix (l := units a) fun u => decide (u ≠ 0)).length_le
  rw [length_units] at hle
  rw [unitsBeforeNul]
  omega

/-- The units before a zero are those of the octets that they take up. -/
lemma units_beforeNul (a : Bytes) :
    units (a.extract 0 (2 * (unitsBeforeNul a).length)) = unitsBeforeNul a := by
  rw [units_extract (size_unitsBeforeNul a)]
  exact (List.prefix_iff_eq_take.mp (List.takeWhile_prefix _)).symm

lemma length_octets (us : List UInt16) : (octets us).toList.length = 2 * us.length := by
  rw [octets, List.toList_toArray]
  induction us with
  | nil => rfl
  | cons u us ih =>
    rw [List.flatMap_cons, List.length_append, length_littleOctets, ih, List.length_cons]
    omega

lemma u16?_littleOctets (u : UInt16) : Bytes.u16? (littleOctets 2 u.toNat).toArray 0 = some u := by
  have hplaced : Placed (littleOctets 2 u.toNat).toArray 0 (littleOctets 2 u.toNat) :=
    Placed.self _
  rw [Bytes.u16?, hplaced.nat? u.toNat_lt, Option.map_some, UInt16.ofNat_toNat]

lemma units_octets_append (us : List UInt16) (rest : Bytes) :
    units (octets us ++ rest) = us ++ units rest := by
  induction us with
  | nil => simp [octets]
  | cons u us ih =>
    have hsplit : octets (u :: us) = (littleOctets 2 u.toNat).toArray ++ octets us := by
      rw [octets, octets, List.flatMap_cons, List.append_toArray]
    have hone : units (littleOctets 2 u.toNat).toArray = [u] := by
      rw [units]
      simp [length_littleOctets, u16?_littleOctets]
    have hsize : (littleOctets 2 u.toNat).toArray.size = 2 * 1 := by
      rw [List.size_toArray, length_littleOctets]
    rw [hsplit, Array.append_assoc, units_append hsize, hone, ih]
    rfl

lemma nonzero_of_mem (h : 0 ∉ us) : ∀ u ∈ us, decide (u ≠ 0) = true := by
  intro u hu
  have hne : u ≠ 0 := fun hzero => h (hzero ▸ hu)
  simpa using hne

/-- Units without a zero are read back up to their end, -/
lemma unitsBeforeNul_octets (h : 0 ∉ us) : unitsBeforeNul (octets us) = us := by
  have hunits := units_octets_append us #[]
  have hnone : units #[] = [] := rfl
  rw [Array.append_empty, hnone, List.append_nil] at hunits
  rw [unitsBeforeNul, hunits, List.takeWhile_eq_self_iff]
  exact nonzero_of_mem h

/-- or up to the zero that follows them. -/
lemma unitsBeforeNul_terminated (h : 0 ∉ us) (rest : Bytes) :
    unitsBeforeNul (octets (us ++ [0]) ++ rest) = us := by
  rw [unitsBeforeNul, units_octets_append, List.append_assoc,
    List.takeWhile_append_of_pos (nonzero_of_mem h)]
  simp

end Octets
end Hallmark.Proofs
