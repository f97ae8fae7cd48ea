import Hallmark.Proofs.ImportSections
import Hallmark.Proofs.Utf8Texts

/-!
# Packed pieces

Pieces that stand one behind the other, and the places where they start: the names in a string table,
or the contents of the sections of an image.
-/

namespace Hallmark.Proofs
variable {α : Type} (piece : α → List UInt8)

/-- The items with the places of their pieces, which follow each other from `place` on. -/
def withPlaces : (place : Nat) → List α → List (Nat × α)
  | _, [] => []
  | place, a :: as => (place, a) :: withPlaces (place + (piece a).length) as

section Places
variable {piece} {data : Bytes} {base place p : Nat} {a : α} {items : List α}

lemma map_withPlaces (place : Nat) (items : List α) :
    (withPlaces piece place items).map Prod.snd = items := by
  induction items generalizing place with
  | nil => rfl
  | cons a items ih => rw [withPlaces, List.map_cons, ih]

lemma length_withPlaces (place : Nat) (items : List α) :
    (withPlaces piece place items).length = items.length := by
  rw [← List.length_map Prod.snd, map_withPlaces]

lemma mem_of_withPlaces (hmem : (p, a) ∈ withPlaces piece place items) : a ∈ items := by
  have hitem := List.mem_map_of_mem (f := Prod.snd) hmem
  rwa [map_withPlaces] at hitem

lemma filter_withPlaces {β : Type} (f : α → β) (keep : α → Bool) (place : Nat) (items : List α) :
    ((withPlaces piece place items).filter fun q => keep q.2).map (fun q => f q.2) =
      (items.filter keep).map f := by
  have hfilter : (withPlaces piece place items).filter (fun q => keep q.2) =
      (withPlaces piece place items).filter (keep ∘ Prod.snd) := rfl
  have hmap : (fun q : Nat × α => f q.2) = f ∘ Prod.snd := rfl
  rw [hfilter, hmap, ← List.map_map, ← List.filter_map, map_withPlaces]

lemma placed_withPlaces (h : Placed data (base + place) (items.flatMap piece))
    (hmem : (p, a) ∈ withPlaces piece place items) : Placed data (base + p) (piece a) := by
  induction items generalizing place with
  | nil => cases hmem
  | cons b items ih =>
    rw [List.flatMap_cons] at h
    rcases List.mem_cons.mp hmem with hfirst | hrest
    · cases hfirst
      exact h.left
    · have hnext := h.right
      rw [Nat.add_assoc] at hnext
      exact ih hnext hrest

/-- Every piece ends inside the whole. -/
lemma withPlaces_inside (hmem : (p, a) ∈ withPlaces piece place items) :
    p + (piece a).length ≤ place + (items.flatMap piece).length := by
  induction items generalizing place with
  | nil => cases hmem
  | cons b items ih =>
    rw [List.flatMap_cons, List.length_append]
    rcases List.mem_cons.mp hmem with hfirst | hrest
    · cases hfirst
      omega
    · have hnext := ih hrest
      omega

end Places

section Names
variable {data : Bytes} {offset stop : Nat} {s : String}

lemma length_terminated (s : String) : (terminated s).length = (Bytes.ofString s).size + 1 := by
  rw [terminated, List.length_append, Array.length_toList, List.length_singleton]

lemma cstring?_of_placed (h : Placed data offset (terminated s)) (hs : '\x00' ∉ s.toList)
    (hstop : offset + (terminated s).length ≤ stop) :
    Bytes.cstring? data offset stop = some (Bytes.ofString s) := by
  have hend : offset + (Bytes.ofString s).toList.length < stop := by
    rw [length_terminated] at hstop
    rw [Array.length_toList]
    omega
  have hslice := h.left.slice?
  rw [Bytes.slice?, if_pos h.left.le_size, Option.some.injEq] at hslice
  rw [Bytes.cstring?, h.nul? (zero_not_mem_ofString hs) hend, Option.map_some, hslice]

end Names

end Hallmark.Proofs
