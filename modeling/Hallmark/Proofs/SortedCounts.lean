import Hallmark.SortedMap
import Mathlib.Algebra.Order.Ring.Nat
import Mathlib.Data.List.Basic
import Mathlib.Data.List.Induction
import Mathlib.Tactic.Lemma
import Mathlib.Tactic.SplitIfs

/-!
# Counts in sorted maps

What a sorted map holds at a key after a change, and the map that counts the members of a list.
-/

namespace Hallmark.Proofs
variable {κ υ : Type} [LT κ] [DecidableLT κ] [DecidableEq κ]

/-- What the map holds at a key. -/
def valueAt? (m : SortedMap κ υ) (key : κ) : Option υ := m.entries.lookup key

/-- Every member of the list is a key of the map, with the number of its occurrences. -/
def Counts (m : SortedMap κ UInt64) (xs : List κ) : Prop :=
  ∀ key, (valueAt? m key).map UInt64.toNat = if key ∈ xs then some (xs.count key) else none

omit [DecidableLT κ] in
lemma Counts.toNat_valueAt? {m : SortedMap κ UInt64} {xs : List κ} (h : Counts m xs) (key : κ) :
    (valueAt? m key).map UInt64.toNat =
      if xs.count key = 0 then none else some (xs.count key) := by
  rw [h key]
  by_cases hmem : key ∈ xs
  · rw [if_pos hmem, if_neg (List.count_pos_iff.mpr hmem).ne']
  · rw [if_neg hmem, if_pos (List.count_eq_zero_of_not_mem hmem)]

omit [LT κ] [DecidableLT κ] in
lemma lookup_cons_eq (k head : κ) (v : υ) (rest : List (κ × υ)) :
    ((head, v) :: rest).lookup k = if k = head then some v else rest.lookup k := by
  rw [List.lookup_cons]
  by_cases h : k = head
  · simp [h]
  · rw [beq_false_of_ne h, if_neg h]

variable [LE κ] [Std.IsLinearOrder κ] [Std.LawfulOrderLT κ]

lemma lookup_alterEntries {key : κ} {change : Option υ → υ} {entries : List (κ × υ)}
    (sorted : entries.Pairwise fun a b => a.1 < b.1) (k : κ) :
    (SortedMap.alterEntries key change entries).lookup k =
      if k = key then some (change (entries.lookup key)) else entries.lookup k := by
  induction entries with
  | nil => rw [SortedMap.alterEntries, lookup_cons_eq]; rfl
  | cons head rest ih =>
    obtain ⟨head, v⟩ := head
    obtain ⟨hfirst, hrest⟩ := List.pairwise_cons.mp sorted
    unfold SortedMap.alterEntries
    by_cases hbefore : key < head
    · -- The key comes before all entries, so it is a new one.
      have hnone : ((head, v) :: rest).lookup key = none := by
        refine List.lookup_eq_none_iff.mpr fun e he => bne_iff_ne.mpr ?_
        rintro rfl
        rcases List.mem_cons.mp he with rfl | he
        · exact Std.lt_irrefl hbefore
        · exact Std.lt_irrefl (Std.lt_trans hbefore (hfirst e he))
      rw [if_pos hbefore, hnone, lookup_cons_eq]
    · rw [if_neg hbefore]
      by_cases hsame : key = head
      · subst hsame
        rw [if_pos rfl, lookup_cons_eq, lookup_cons_eq, lookup_cons_eq, if_pos rfl]
        split_ifs <;> rfl
      · rw [if_neg hsame, lookup_cons_eq, lookup_cons_eq, lookup_cons_eq, if_neg hsame, ih hrest]
        by_cases h : k = head
        · have hne : k ≠ key := fun hk => hsame (hk.symm.trans h)
          rw [if_pos h, if_neg hne, if_pos h]
        · rw [if_neg h, if_neg h]

lemma valueAt?_alter (m : SortedMap κ υ) (key : κ) (change : Option υ → υ) (k : κ) :
    valueAt? (m.alter key change) k =
      if k = key then some (change (valueAt? m key)) else valueAt? m k :=
  lookup_alterEntries m.sorted k

lemma valueAt?_foldl_count (xs : List κ) (key : κ) :
    valueAt? (xs.foldl SortedMap.count .empty) key =
      if key ∈ xs then some (UInt64.ofNat (xs.count key)) else none := by
  induction xs using List.reverseRecOn with
  | nil => rfl
  | append_singleton xs x ih =>
    rw [List.foldl_concat, SortedMap.count, valueAt?_alter]
    by_cases hx : key = x
    · subst hx
      have hnext : (valueAt? (xs.foldl SortedMap.count .empty) key).getD 0 + 1 =
          UInt64.ofNat (xs.count key + 1) := by
        rw [ih, UInt64.ofNat_add]
        by_cases hmem : key ∈ xs
        · simp [hmem]
        · simp [hmem, List.count_eq_zero_of_not_mem hmem]
      simp [hnext]
    · have hx' : ¬x = key := fun h => hx h.symm
      simp [hx, ih, List.count_append, hx']

/-- Counting one member after the other ends with the counts of the list, unless there are more
members than a count can hold. -/
theorem counts_foldl_count {xs : List κ} (hlength : xs.length < 2 ^ 64) :
    Counts (xs.foldl SortedMap.count .empty) xs := by
  intro key
  rw [valueAt?_foldl_count]
  by_cases h : key ∈ xs
  · have hcount : (UInt64.ofNat (xs.count key)).toNat = xs.count key :=
      UInt64.toNat_ofNat_of_lt' (Nat.lt_of_le_of_lt List.count_le_length hlength)
    simp [h, hcount]
  · simp [h]

end Hallmark.Proofs
