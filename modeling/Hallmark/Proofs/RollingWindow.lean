import Hallmark.Proofs.Pieces
import Mathlib.Algebra.Group.Fin.Basic
import Mathlib.Algebra.Order.BigOperators.Group.Finset

/-!
# The window of the rolling hash

The sums of a rolling hash are those of the last seven bytes, each with a weight that falls with
its age. What was read before has left the ring, two of the sums and, shifted out of its word, the
third one, so the rolling sum does not depend on it.
-/

namespace Hallmark.Proofs
open FuzzyHash

/-- The byte that was read `age` bytes before the last one. Missing bytes are zero. -/
def byteOfAge (data : List UInt8) (age : Nat) : UInt8 := data.reverse.getD age 0

lemma byteOfAge_nil (age : Nat) : byteOfAge [] age = 0 := rfl

lemma byteOfAge_snoc_zero (data : List UInt8) (x : UInt8) : byteOfAge (data ++ [x]) 0 = x := by
  simp [byteOfAge]

lemma byteOfAge_snoc_succ (data : List UInt8) (x : UInt8) (age : Nat) :
    byteOfAge (data ++ [x]) (age + 1) = byteOfAge data age := by
  simp [byteOfAge]

lemma byteOfAge_append {data : List UInt8} {age : Nat} (h : age < data.length)
    (front : List UInt8) : byteOfAge (front ++ data) age = byteOfAge data age := by
  have hage : age < data.reverse.length := by rwa [List.length_reverse]
  rw [byteOfAge, byteOfAge, List.reverse_append, List.getD_eq_getElem?_getD,
    List.getElem?_append_left hage, ← List.getD_eq_getElem?_getD]

lemma byteOfAge_lt (data : List UInt8) (age : Nat) : (byteOfAge data age).toNat < 256 :=
  UInt8.toNat_lt _

/-! ## The three sums -/

/-- The sum of the last seven bytes. -/
def byteSum (data : List UInt8) : Nat := ∑ age ∈ Finset.range 7, (byteOfAge data age).toNat

/-- The sum of the last seven bytes with the weights seven to one, the last byte having the
greatest. -/
def weightedSum (data : List UInt8) : Nat :=
  ∑ age ∈ Finset.range 7, (7 - age) * (byteOfAge data age).toNat

lemma byteSum_snoc (data : List UInt8) (x : UInt8) :
    byteSum (data ++ [x]) + (byteOfAge data 6).toNat = byteSum data + x.toNat := by
  simp only [byteSum, Finset.sum_range_succ, Finset.sum_range_zero, byteOfAge_snoc_zero,
    byteOfAge_snoc_succ]
  omega

lemma weightedSum_snoc (data : List UInt8) (x : UInt8) :
    weightedSum (data ++ [x]) + byteSum data = weightedSum data + 7 * x.toNat := by
  simp only [weightedSum, byteSum, Finset.sum_range_succ, Finset.sum_range_zero,
    byteOfAge_snoc_zero, byteOfAge_snoc_succ]
  omega

lemma byteSum_le_weightedSum (data : List UInt8) : byteSum data ≤ weightedSum data := by
  apply Finset.sum_le_sum
  intro age hage
  have hlt := Finset.mem_range.mp hage
  exact Nat.le_mul_of_pos_left _ (by omega)

/-- Neither sum comes near the end of its word. -/
lemma weightedSum_le (data : List UInt8) : weightedSum data ≤ 28 * 255 := by
  have hlt := byteOfAge_lt data
  have hle : weightedSum data ≤ ∑ age ∈ Finset.range 7, (7 - age) * 255 := by
    apply Finset.sum_le_sum
    intro age _
    exact Nat.mul_le_mul_left _ (Nat.le_of_lt_succ (hlt age))
  exact hle

/-- The exclusive or of the last `n` bytes, each shifted by five bits for every byte behind it. -/
def shiftedXor (data : List UInt8) : (n : Nat) → Nat
  | 0 => 0
  | n + 1 => shiftedXor data n ^^^ ((byteOfAge data n).toNat <<< (5 * n))

lemma shiftedXor_nil (n : Nat) : shiftedXor [] n = 0 := by
  induction n with
  | zero => rfl
  | succ n ih => simp [shiftedXor, ih, byteOfAge_nil]

lemma shiftedXor_snoc (data : List UInt8) (x : UInt8) (n : Nat) :
    shiftedXor (data ++ [x]) (n + 1) = (shiftedXor data n <<< 5) ^^^ x.toNat := by
  induction n with
  | zero => simp [shiftedXor, byteOfAge_snoc_zero]
  | succ n ih =>
    rw [shiftedXor, ih, byteOfAge_snoc_succ, shiftedXor, Nat.shiftLeft_xor_distrib,
      ← Nat.shiftLeft_add, Nat.xor_assoc, Nat.xor_assoc, Nat.xor_comm x.toNat, Nat.mul_succ]

/-- A byte of age seven has been shifted out of its word. -/
lemma shiftedXor_word (data : List UInt8) :
    shiftedXor data 8 % 2 ^ 32 = shiftedXor data 7 % 2 ^ 32 := by
  have hout : (byteOfAge data 7).toNat <<< 35 % 2 ^ 32 = 0 := by
    rw [Nat.shiftLeft_eq]
    omega
  rw [shiftedXor, Nat.xor_mod_two_pow, hout, Nat.xor_zero]

/-- A rolling hash holds the last seven bytes of `data` and their three sums. -/
structure Summarises (r : Rolling) (data : List UInt8) : Prop where
  window : ∀ i : Fin 7, r.window.get (r.next + i) = byteOfAge data (6 - i)
  h1 : r.h1.toNat = byteSum data
  h2 : r.h2.toNat = weightedSum data
  h3 : r.h3.toNat = shiftedXor data 7 % 2 ^ 32

lemma summarises_fresh : Summarises .fresh [] := by
  refine ⟨by decide, rfl, rfl, ?_⟩
  rw [shiftedXor_nil]
  rfl

namespace Summarises
variable {r : Rolling} {data : List UInt8} (h : Summarises r data) (x : UInt8)
include h

lemma oldest : r.window.get r.next = byteOfAge data 6 := by
  simpa using h.window 0

lemma push_window (i : Fin 7) :
    (r.push x).window.get ((r.push x).next + i) = byteOfAge (data ++ [x]) (6 - i) := by
  have hplace : (r.next + 1 + i).val = (r.next.val + 1 + i.val) % 7 := by
    simp [Fin.val_add]
  have hget : (r.push x).window.get ((r.push x).next + i) =
      if r.next.val = (r.next + 1 + i).val then x else r.window.get (r.next + 1 + i) :=
    Vector.getElem_set r.next.isLt (r.next + 1 + i).isLt
  rw [hget]
  -- The new byte stands in the place of the oldest one, which is now the last place of the ring.
  by_cases hi : i = 6
  · subst hi
    rw [if_pos (by omega)]
    exact (byteOfAge_snoc_zero data x).symm
  · have hlt : i.val < 6 := by omega
    have hage : 6 - i.val = 6 - (1 + i : Fin 7).val + 1 := by
      simp [Fin.val_add]
      omega
    rw [if_neg (by omega), add_assoc, h.window, hage, byteOfAge_snoc_succ]

lemma push_h1 : (r.push x).h1.toNat = byteSum (data ++ [x]) := by
  have hsnoc := byteSum_snoc data x
  have hbound := (byteSum_le_weightedSum data).trans (weightedSum_le data)
  have hx := x.toNat_lt
  have hsum : (r.h1 + x.toUInt32).toNat = byteSum data + x.toNat := by
    rw [UInt32.toNat_add, UInt8.toNat_toUInt32, h.h1]
    omega
  have hle : (byteOfAge data 6).toUInt32 ≤ r.h1 + x.toUInt32 := by
    rw [UInt32.le_iff_toNat_le, hsum, UInt8.toNat_toUInt32]
    omega
  change (r.h1 + x.toUInt32 - (r.window.get r.next).toUInt32).toNat = _
  rw [h.oldest, UInt32.toNat_sub_of_le _ _ hle, hsum, UInt8.toNat_toUInt32]
  omega

lemma push_h2 : (r.push x).h2.toNat = weightedSum (data ++ [x]) := by
  have hsnoc := weightedSum_snoc data x
  have hordered := byteSum_le_weightedSum data
  have hbound := weightedSum_le data
  have hx := x.toNat_lt
  have hle : r.h1 ≤ r.h2 := by
    rw [UInt32.le_iff_toNat_le, h.h1, h.h2]
    exact hordered
  change (r.h2 - r.h1 + 7 * x.toUInt32).toNat = _
  have hseven : (7 * x.toUInt32).toNat = 7 * x.toNat := by
    rw [UInt32.toNat_mul, UInt8.toNat_toUInt32]
    exact Nat.mod_eq_of_lt (by change 7 * x.toNat < 2 ^ 32; omega)
  rw [UInt32.toNat_add, UInt32.toNat_sub_of_le _ _ hle, hseven, h.h1, h.h2]
  omega

lemma push_h3 : (r.push x).h3.toNat = shiftedXor (data ++ [x]) 7 % 2 ^ 32 := by
  have hbyte : x.toNat % 2 ^ 32 = x.toNat := Nat.mod_eq_of_lt (by have := x.toNat_lt; omega)
  rw [← shiftedXor_word, shiftedXor_snoc, Nat.xor_mod_two_pow, hbyte]
  change ((r.h3 <<< 5) ^^^ x.toUInt32).toNat = _
  rw [UInt32.toNat_xor, UInt8.toNat_toUInt32, UInt32.toNat_shiftLeft, h.h3]
  congr 1
  change (shiftedXor data 7 % 2 ^ 32) <<< 5 % 2 ^ 32 = _
  rw [Nat.shiftLeft_eq, Nat.shiftLeft_eq]
  omega

lemma push : Summarises (r.push x) (data ++ [x]) :=
  ⟨h.push_window x, h.push_h1 x, h.push_h2 x, h.push_h3 x⟩

end Summarises

/-- A rolling hash that has read some data holds its last seven bytes and their sums. -/
lemma summarises_rollingAfter (data : List UInt8) : Summarises (rollingAfter data) data := by
  induction data using List.reverseRecOn with
  | nil => exact summarises_fresh
  | append_singleton data x ih =>
    rw [rollingAfter_snoc]
    exact ih.push x

/-! ## Data with the same end -/

/-- The last seven bytes are the same. -/
def SameWindow (data other : List UInt8) : Prop :=
  ∀ age < 7, byteOfAge data age = byteOfAge other age

lemma sameWindow_append {data : List UInt8} (h : 7 ≤ data.length) (front : List UInt8) :
    SameWindow (front ++ data) data := by
  intro age hage
  exact byteOfAge_append (by omega) front

lemma SameWindow.shiftedXor_eq {data other : List UInt8} (h : SameWindow data other) {n : Nat}
    (hn : n ≤ 7) : shiftedXor data n = shiftedXor other n := by
  induction n with
  | zero => rfl
  | succ n ih => rw [shiftedXor, shiftedXor, ih (by omega), h n hn]

/-- The rolling sum depends on nothing but the last seven bytes. -/
lemma SameWindow.sum_eq {data other : List UInt8} (h : SameWindow data other) :
    (rollingAfter data).sum = (rollingAfter other).sum := by
  have hdata := summarises_rollingAfter data
  have hother := summarises_rollingAfter other
  have h1 : byteSum data = byteSum other := by
    apply Finset.sum_congr rfl
    intro age hage
    rw [h age (Finset.mem_range.mp hage)]
  have h2 : weightedSum data = weightedSum other := by
    apply Finset.sum_congr rfl
    intro age hage
    rw [h age (Finset.mem_range.mp hage)]
  have h3 : shiftedXor data 7 = shiftedXor other 7 := h.shiftedXor_eq (Nat.le_refl 7)
  have hsum1 : (rollingAfter data).h1 = (rollingAfter other).h1 :=
    UInt32.toNat_inj.mp (by rw [hdata.h1, hother.h1, h1])
  have hsum2 : (rollingAfter data).h2 = (rollingAfter other).h2 :=
    UInt32.toNat_inj.mp (by rw [hdata.h2, hother.h2, h2])
  have hsum3 : (rollingAfter data).h3 = (rollingAfter other).h3 :=
    UInt32.toNat_inj.mp (by rw [hdata.h3, hother.h3, h3])
  rw [Rolling.sum, Rolling.sum, hsum1, hsum2, hsum3]

/-- None of the sums and differences that take a byte into the first two accumulators leaves its
word. -/
structure StaysInWord (r : Rolling) (x : UInt8) : Prop where
  h1_add : r.h1.toNat + x.toNat < 2 ^ 32
  oldest_le : (r.window.get r.next).toNat ≤ r.h1.toNat + x.toNat
  h1_le_h2 : r.h1.toNat ≤ r.h2.toNat
  weighted : 7 * x.toNat < 2 ^ 32
  h2_add : r.h2.toNat - r.h1.toNat + 7 * x.toNat < 2 ^ 32

section Sums
variable {r : Rolling} {data : List UInt8}

lemma Summarises.staysInWord (h : Summarises r data) (x : UInt8) : StaysInWord r x := by
  have hx := x.toNat_lt
  have hordered := byteSum_le_weightedSum data
  have hbound := weightedSum_le data
  have hsnoc := byteSum_snoc data x
  constructor
  · rw [h.h1]
    omega
  · rw [h.oldest, h.h1]
    omega
  · rw [h.h1, h.h2]
    exact hordered
  · omega
  · rw [h.h1, h.h2]
    omega

lemma Summarises.sum (h : Summarises r data) :
    r.sum.toNat = (byteSum data + weightedSum data + shiftedXor data 7) % 2 ^ 32 := by
  rw [Rolling.sum, UInt32.toNat_add, UInt32.toNat_add, h.h1, h.h2, h.h3, Nat.mod_add_mod,
    Nat.add_mod_mod]

end Sums

/-- Behind any bytes the ring and the accumulators of a rolling hash are those of the last seven of
them, and no next byte takes the first two accumulators out of their words. Histories of any
lengths that end in the same seven bytes have one sum. -/
theorem rolling_sums_of_last_seven (data : List UInt8) :
    Summarises (rollingAfter data) data ∧
      (∀ x, StaysInWord (rollingAfter data) x) ∧
      (rollingAfter data).sum.toNat =
        (byteSum data + weightedSum data + shiftedXor data 7) % 2 ^ 32 ∧
      ∀ other, SameWindow data other → (rollingAfter data).sum = (rollingAfter other).sum := by
  have h := summarises_rollingAfter data
  refine ⟨h, h.staysInWord, h.sum, ?_⟩
  intro other hsame
  exact hsame.sum_eq

/-- Two histories that end alike have one sum, though the ring begins at different places. -/
theorem rolling_sums_of_longer_history :
    SameWindow [255, 2, 3, 0, 5, 6, 7] [9, 8, 255, 2, 3, 0, 5, 6, 7] ∧
      (rollingAfter [255, 2, 3, 0, 5, 6, 7]).next ≠
        (rollingAfter [9, 8, 255, 2, 3, 0, 5, 6, 7]).next ∧
      (rollingAfter [255, 2, 3, 0, 5, 6, 7]).sum =
        (rollingAfter [9, 8, 255, 2, 3, 0, 5, 6, 7]).sum := by
  have hsame : SameWindow [255, 2, 3, 0, 5, 6, 7] [9, 8, 255, 2, 3, 0, 5, 6, 7] := by
    unfold SameWindow
    decide
  exact ⟨hsame, by decide, (rolling_sums_of_last_seven _).2.2.2 _ hsame⟩

/-- What stands more than seven bytes in front of a place has no part in a boundary there. -/
lemma isBoundary_behind {data : List UInt8} {i : Nat} (hi : 6 ≤ i) (hlt : i < data.length)
    (front : List UInt8) (b : Nat) :
    IsBoundary (front ++ data) b (front.length + i) ↔ IsBoundary data b i := by
  have hread : 7 ≤ (data.take (i + 1)).length := by
    rw [List.length_take]
    omega
  have hsum := (sameWindow_append hread front).sum_eq
  rw [IsBoundary, IsBoundary, rollingSum, rollingSum, Nat.add_assoc, List.take_length_add_append,
    hsum]

end Hallmark.Proofs
