/-!
# Sorted maps

A finite map as the list of its entries in ascending order of key.  Two maps with the same entries are equal, and
listing one needs no further sorting.
-/

namespace Hallmark

/-- Entries in ascending order of key, one for each key. -/
structure SortedMap (κ υ : Type) [LT κ] where
  entries : List (κ × υ)
  sorted : entries.Pairwise fun a b => a.1 < b.1

namespace SortedMap

variable {κ υ : Type} [LT κ] [DecidableLT κ] [DecidableEq κ]

def empty : SortedMap κ υ := ⟨[], .nil⟩

/-- Puts `change` of the value at `key`, if there is one, at that key. -/
def alterEntries (key : κ) (change : Option υ → υ) : List (κ × υ) → List (κ × υ)
  | [] => [(key, change none)]
  | (k, v) :: rest =>
    if key < k then (key, change none) :: (k, v) :: rest
    else if key = k then (k, change (some v)) :: rest
    else (k, v) :: alterEntries key change rest

/-- The keys after a change are the old ones and the changed one. -/
theorem mem_alterEntries {key : κ} {change : Option υ → υ} {entries : List (κ × υ)} {e : κ × υ}
    (h : e ∈ alterEntries key change entries) : e.1 = key ∨ ∃ v, (e.1, v) ∈ entries := by
  induction entries with
  | nil => simp_all [alterEntries]
  | cons head rest ih =>
    obtain ⟨k, v⟩ := head
    unfold alterEntries at h
    split at h
    · rcases List.mem_cons.1 h with rfl | h
      · exact .inl rfl
      · exact .inr ⟨e.2, h⟩
    · split at h
      · rcases List.mem_cons.1 h with rfl | h
        · exact .inr ⟨v, List.mem_cons_self⟩
        · exact .inr ⟨e.2, List.mem_cons_of_mem _ h⟩
      · rcases List.mem_cons.1 h with rfl | h
        · exact .inr ⟨v, List.mem_cons_self⟩
        · rcases ih h with h | ⟨w, h⟩
          · exact .inl h
          · exact .inr ⟨w, List.mem_cons_of_mem _ h⟩

/-- A change keeps the entries in ascending order. -/
theorem sorted_alterEntries [LE κ] [Std.IsLinearOrder κ] [Std.LawfulOrderLT κ]
    {key : κ} {change : Option υ → υ} {entries : List (κ × υ)}
    (sorted : entries.Pairwise fun a b => a.1 < b.1) :
    (alterEntries key change entries).Pairwise fun a b => a.1 < b.1 := by
  induction entries with
  | nil => simp [alterEntries]
  | cons head rest ih =>
    obtain ⟨k, v⟩ := head
    obtain ⟨first, others⟩ := List.pairwise_cons.1 sorted
    unfold alterEntries
    split
    · next before =>
      refine List.pairwise_cons.2 ⟨fun e he => ?_, sorted⟩
      rcases List.mem_cons.1 he with rfl | he
      · exact before
      · exact Std.lt_trans before (first e he)
    · next not_before =>
      split
      · exact List.pairwise_cons.2 ⟨first, others⟩
      · next different =>
        refine List.pairwise_cons.2 ⟨fun e he => ?_, ih others⟩
        rcases mem_alterEntries he with he | ⟨w, he⟩
        · rw [he]
          rcases Std.lt_trichotomy key k with before | same | after
          · exact absurd before not_before
          · exact absurd same different
          · exact after
        · exact first (e.1, w) he

variable [LE κ] [Std.IsLinearOrder κ] [Std.LawfulOrderLT κ]

/-- Puts `change` of the value at `key`, if there is one, at that key. -/
def alter (m : SortedMap κ υ) (key : κ) (change : Option υ → υ) : SortedMap κ υ :=
  ⟨alterEntries key change m.entries, sorted_alterEntries m.sorted⟩

/-- Puts a value at a key in place of any other. -/
def insert (m : SortedMap κ υ) (key : κ) (value : υ) : SortedMap κ υ :=
  m.alter key fun _ => value

/-- Adds one to the count at a key. -/
def count (m : SortedMap κ UInt64) (key : κ) : SortedMap κ UInt64 :=
  m.alter key fun n => n.getD 0 + 1

end SortedMap

end Hallmark
