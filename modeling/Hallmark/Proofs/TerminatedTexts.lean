import Hallmark.Proofs.PlacedBytes

/-!
# Texts that end with a zero octet

A read of such a text succeeds exactly where one stands, and says otherwise what is missing.
-/

namespace Hallmark.Proofs
open Pe

/-- The text stands at `offset`: no octet of it is zero, and a zero octet follows. -/
structure TextAt (data : Bytes) (offset : Nat) (text : Bytes) : Prop where
  placed : Placed data offset (text.toList ++ [0])
  nonzero : 0 ∉ text.toList

section Search
variable {data : Bytes} {offset stop close : Nat}

/-- What a search finds is a zero octet, and it passes over none. -/
lemma nul?_some (h : Bytes.nul? data offset stop = some close) :
    offset ≤ close ∧ close < stop ∧ data[close]? = some 0 ∧
      ∀ i, offset ≤ i → i < close → data[i]? ≠ some 0 := by
  fun_induction Bytes.nul? data offset stop with
  | case1 offset hstop hin hzero =>
    obtain rfl : offset = close := by simpa using h
    refine ⟨Nat.le_refl _, hstop, ?_, fun i hle hlt => absurd hlt (Nat.not_lt.mpr hle)⟩
    rw [Array.getElem?_eq_getElem hin, hzero]
  | case2 offset hstop hin hzero ih =>
    obtain ⟨hle, hclose, hfound, hbefore⟩ := ih h
    refine ⟨Nat.le_of_succ_le hle, hclose, hfound, fun i hfrom hto => ?_⟩
    rcases Nat.eq_or_lt_of_le hfrom with rfl | hlater
    · simpa [Array.getElem?_eq_getElem hin] using hzero
    · exact hbefore i hlater hto
  | case3 => simp at h
  | case4 => simp at h

lemma nul?_none (h : Bytes.nul? data offset data.size = none) {i : Nat} (hi : offset ≤ i) :
    data[i]? ≠ some 0 := by
  fun_induction Bytes.nul? data offset data.size with
  | case1 => simp at h
  | case2 offset hstop hin hzero ih =>
    rcases Nat.eq_or_lt_of_le hi with rfl | hlater
    · simpa [Array.getElem?_eq_getElem hin] using hzero
    · exact ih h hlater
  | case3 offset hstop hout => exact absurd hstop hout
  | case4 offset hout => simp [Array.getElem?_eq_none (show data.size ≤ i by omega)]

end Search

section Reads
variable {data : Bytes} {offset : Nat} {text : Bytes} {e : Error}

lemma textAt_of_slice? (h : Bytes.slice? data offset (text.size + 1) = some (text.push 0))
    (hzero : 0 ∉ text.toList) : TextAt data offset text := by
  refine ⟨?_, hzero⟩
  rw [← Array.toList_push]
  exact placed_of_slice? h

lemma textAt_of_nul? {close : Nat} (h : Bytes.nul? data offset data.size = some close) :
    TextAt data offset (data.extract offset close) := by
  obtain ⟨hle, hclose, hzero, hbefore⟩ := nul?_some h
  obtain ⟨len, rfl⟩ := Nat.exists_eq_add_of_le hle
  have hsplit : data.extract offset (offset + (len + 1)) =
      data.extract offset (offset + len) ++ #[0] := by
    have hlast : data[offset + len] = 0 := by
      simpa [Array.getElem?_eq_getElem hclose] using hzero
    have hpush := Array.push_extract_getElem (i := offset) hclose
    rw [hlast, Nat.min_eq_left hle] at hpush
    rw [← Nat.add_assoc, ← hpush, Array.push_eq_append]
  constructor
  · have hplaced := placed_extract (show offset + (len + 1) ≤ data.size from hclose)
    rwa [hsplit, Array.toList_append] at hplaced
  · intro hmem
    obtain ⟨i, hi, hoctet⟩ := Array.mem_extract_iff_getElem.mp (Array.mem_toList_iff.mp hmem)
    refine hbefore (offset + i) (Nat.le_add_right _ _) (by omega) ?_
    rw [Array.getElem?_eq_getElem (by omega), hoctet]

lemma cstring_ok : cstring data offset = .ok text ↔ TextAt data offset text := by
  constructor
  · intro h
    by_cases hout : data.size ≤ offset
    · simp [cstring, hout] at h
    · rw [cstring, if_neg hout, Bytes.cstring?] at h
      cases hnul : Bytes.nul? data offset data.size with
      | none => simp [hnul] at h
      | some close =>
        obtain rfl : data.extract offset close = text := by simpa [hnul] using h
        exact textAt_of_nul? hnul
  · intro h
    exact h.placed.cstring h.nonzero

lemma cstring_error :
    cstring data offset = .error e ↔
      (data.size ≤ offset ∧ e = .invalidOffset offset) ∨
      (offset < data.size ∧ (∀ i, offset ≤ i → data[i]? ≠ some 0) ∧ e = .invalidString offset) := by
  by_cases hout : data.size ≤ offset
  · simp [cstring, hout, Nat.not_lt.mpr hout, eq_comm]
  · have hin : offset < data.size := Nat.lt_of_not_le hout
    cases hnul : Bytes.nul? data offset data.size with
    | none =>
      have hnone : ∀ i, offset ≤ i → data[i]? ≠ some 0 := fun i hi => nul?_none hnul hi
      simp only [cstring, Bytes.cstring?, hout, hnul, hin, if_false, Option.map_none,
        Except.error.injEq, false_and, false_or, true_and, eq_comm]
      exact ⟨fun h => ⟨hnone, h⟩, fun h => h.2⟩
    | some close =>
      obtain ⟨hle, -, hzero, -⟩ := nul?_some hnul
      have hsome : ¬∀ i, offset ≤ i → data[i]? ≠ some 0 := fun h => h close hle hzero
      simp only [cstring, Bytes.cstring?, hout, hnul, hsome, false_and, and_false, or_self,
        if_false, Option.map_some, reduceCtorEq]

end Reads
end Hallmark.Proofs
