import Hallmark.Bytes
import Mathlib.Data.Nat.Basic
import Mathlib.Tactic.ByContra

/-!
# Reads of byte arrays

Reads only look at the bytes they are about: two arrays with a common beginning answer every read
inside it alike. The search for a pattern finds its first occurrence.
-/

namespace Hallmark.Proofs

/-- Both arrays hold at least `n` bytes, and the first `n` are the same. -/
structure AgreeTo (n : Nat) (a b : Bytes) : Prop where
  left : n ≤ a.size
  right : n ≤ b.size
  start : a.extract 0 n = b.extract 0 n

namespace AgreeTo
variable {n : Nat} {a b : Bytes}

lemma of_extract (hn : n ≤ a.size) (h : b.extract 0 n = a.extract 0 n) : AgreeTo n a b := by
  refine ⟨hn, ?_, h.symm⟩
  have hsize := congrArg Array.size h
  simp only [Array.size_extract] at hsize
  omega

lemma extract (h : AgreeTo n a b) (i : Nat) {j : Nat} (hj : j ≤ n) :
    a.extract i j = b.extract i j := by
  have hinner (c : Bytes) : c.extract i j = (c.extract 0 n).extract i j := by
    rw [Array.extract_extract, Nat.zero_add, Nat.zero_add, Nat.min_eq_left hj]
  rw [hinner a, hinner b, h.start]

lemma slice? (h : AgreeTo n a b) {offset len : Nat} (hin : offset + len ≤ n) :
    Bytes.slice? a offset len = Bytes.slice? b offset len := by
  have ha : offset + len ≤ a.size := Nat.le_trans hin h.left
  have hb : offset + len ≤ b.size := Nat.le_trans hin h.right
  rw [Bytes.slice?, Bytes.slice?, if_pos ha, if_pos hb, h.extract offset hin]

lemma u16? (h : AgreeTo n a b) {offset : Nat} (hin : offset + 2 ≤ n) :
    Bytes.u16? a offset = Bytes.u16? b offset := by
  rw [Bytes.u16?, Bytes.u16?, Bytes.nat?, Bytes.nat?, h.slice? hin]

lemma hasAt (h : AgreeTo n a b) {offset : Nat} {pattern : Bytes} (hin : offset + pattern.size ≤ n) :
    Bytes.hasAt a offset pattern = Bytes.hasAt b offset pattern := by
  rw [Bytes.hasAt, Bytes.hasAt, h.slice? hin]

lemma append_tail (hn : n ≤ a.size) (tail : Bytes) : AgreeTo n a (a.extract 0 n ++ tail) := by
  have hsize : (a.extract 0 n).size = n := Array.size_extract_of_le hn
  refine of_extract hn ?_
  rw [Array.extract_append, hsize, Nat.sub_self, Nat.zero_sub, Array.extract_zero,
    Array.append_empty, Array.extract_extract, Nat.zero_add, Nat.zero_add, Nat.min_self]

end AgreeTo

lemma extract_tail {n : Nat} {a : Bytes} (hn : n ≤ a.size) (tail : Bytes) :
    (a.extract 0 n ++ tail).extract n (a.extract 0 n ++ tail).size = tail := by
  have hsize : (a.extract 0 n).size = n := Array.size_extract_of_le hn
  rw [Array.extract_append, Array.size_append, hsize, Nat.sub_self, Nat.add_sub_cancel_left,
    Array.extract_size, Array.extract_eq_empty_of_le (by omega), Array.empty_append]

lemma size_of_hasAt {data pattern : Bytes} {offset : Nat} (h : Bytes.hasAt data offset pattern) :
    offset + pattern.size ≤ data.size := by
  by_contra hout
  simp [Bytes.hasAt, Bytes.slice?, hout] at h

/-- The pattern stands at `place`, and nowhere before. -/
structure FirstAt (data pattern : Bytes) (place : Nat) : Prop where
  here : Bytes.hasAt data place pattern
  before : ∀ j < place, ¬Bytes.hasAt data j pattern

lemma find?_of_firstAt {data pattern : Bytes} {place : Nat} (h : FirstAt data pattern place)
    {offset : Nat} (hoffset : offset ≤ place) : Bytes.find? data pattern offset = some place := by
  have hroom := size_of_hasAt h.here
  induction hn : place - offset generalizing offset with
  | zero =>
    obtain rfl : offset = place := by omega
    rw [Bytes.find?, dif_pos hroom, if_pos h.here]
  | succ n ih =>
    have hlt : offset < place := by omega
    rw [Bytes.find?, dif_pos (by omega), if_neg (h.before offset hlt), if_pos (by omega)]
    exact ih hlt (by omega)

lemma FirstAt.agree {n place : Nat} {a b pattern : Bytes} (h : FirstAt a pattern place)
    (hagree : AgreeTo n a b) (hin : place + pattern.size ≤ n) : FirstAt b pattern place := by
  refine ⟨hagree.hasAt hin ▸ h.here, fun j hj => ?_⟩
  rw [← hagree.hasAt (show j + pattern.size ≤ n by omega)]
  exact h.before j hj

end Hallmark.Proofs
