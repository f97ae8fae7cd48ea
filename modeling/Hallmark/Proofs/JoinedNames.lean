import Hallmark.Symbol.Hash
import Mathlib.Data.List.Basic
import Mathlib.Tactic.Lemma

/-!
# Lists of names

A sorted list of names is a canonical form of the names in any order, and a list that is joined with
commas can be taken apart again, as long as the names have no commas of their own and are not empty.
-/

namespace Hallmark.Proofs

/-! ## Sorting -/

lemma sortNames_perm (names : List String) : (sortNames names).Perm names :=
  List.mergeSort_perm names _

lemma sortNames_sorted (names : List String) : (sortNames names).Pairwise (· ≤ ·) := by
  have hsorted : (sortNames names).Pairwise fun a b => decide (a ≤ b) := by
    apply List.pairwise_mergeSort
    · intro a b c hab hbc
      rw [decide_eq_true_iff] at hab hbc ⊢
      exact String.le_trans hab hbc
    · intro a b
      rw [Bool.or_eq_true, decide_eq_true_iff, decide_eq_true_iff]
      exact String.le_total a b
  exact hsorted.imp fun h => of_decide_eq_true h

lemma sortNames_eq_iff {names names' : List String} :
    sortNames names = sortNames names' ↔ names.Perm names' := by
  constructor
  · intro h
    have hperm := sortNames_perm names'
    rw [← h] at hperm
    exact (sortNames_perm names).symm.trans hperm
  · intro h
    have hperm : (sortNames names).Perm (sortNames names') :=
      (sortNames_perm names).trans (h.trans (sortNames_perm names').symm)
    exact hperm.eq_of_pairwise (fun a b _ _ => String.le_antisymm) (sortNames_sorted names)
      (sortNames_sorted names')

/-! ## Joining with commas -/

/-- A name that can be told from its neighbours when it is joined with them. -/
def Joinable (name : String) : Prop := name ≠ "" ∧ ',' ∉ name.toList

lemma split_joinNames {names : List String} (h : ∀ name ∈ names, Joinable name) :
    ((joinNames names).split ',').toList.map (·.copy) = if names = [] then [""] else names :=
  String.toList_split_intercalate fun name hname => (h name hname).2

/-- An empty list is joined to the empty text, which is also a single empty name. -/
lemma joinNames_inj {names names' : List String} (hleft : ∀ name ∈ names, Joinable name)
    (hright : ∀ name ∈ names', Joinable name) :
    joinNames names = joinNames names' ↔ names = names' := by
  constructor
  · intro hjoin
    have hsplit := split_joinNames hleft
    rw [hjoin, split_joinNames hright] at hsplit
    -- When one list is empty and the other is not, the other has an empty name.
    split_ifs at hsplit with hempty' hempty hempty
    · rw [hempty, hempty']
    · exact absurd rfl (hleft "" (by simp [← hsplit])).1
    · exact absurd rfl (hright "" (by simp [hsplit])).1
    · exact hsplit.symm
  · intro hnames
    rw [hnames]

/-- Names that are sorted before they are joined can be told but for their order, each as often as it
is there. -/
lemma joinNames_sortNames {names names' : List String} (hleft : ∀ name ∈ names, Joinable name)
    (hright : ∀ name ∈ names', Joinable name) :
    joinNames (sortNames names) = joinNames (sortNames names') ↔ names.Perm names' := by
  have hsorted {l : List String} (h : ∀ name ∈ l, Joinable name) :
      ∀ name ∈ sortNames l, Joinable name :=
    fun name hname => h name ((sortNames_perm l).mem_iff.mp hname)
  rw [joinNames_inj (hsorted hleft) (hsorted hright), sortNames_eq_iff]

end Hallmark.Proofs
