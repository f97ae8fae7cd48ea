import Hallmark.Proofs.FieldRecords

/-!
# Patched buffers

A buffer that pieces are written into one after the other. Where the pieces are apart from each
other, each of them is found in its place in the end, and what none of them touches stays.
-/

namespace Hallmark.Proofs

/-- The buffer with the pieces written to their places, in order. -/
def patched (buffer : List UInt8) (writes : List (Nat × List UInt8)) : List UInt8 :=
  writes.foldl (fun filled w => overwrite filled w.1 w.2) buffer

/-- Two runs of octets, each given by its place and its length, that have no place in common. -/
def Apart (p q : Nat × Nat) : Prop := p.1 + p.2 ≤ q.1 ∨ q.1 + q.2 ≤ p.1

instance (p q : Nat × Nat) : Decidable (Apart p q) :=
  inferInstanceAs (Decidable (p.1 + p.2 ≤ q.1 ∨ q.1 + q.2 ≤ p.1))

def span (w : Nat × List UInt8) : Nat × Nat := (w.1, w.2.length)

lemma Apart.symm {p q : Nat × Nat} (h : Apart p q) : Apart q p := Or.symm h

section Placed
variable {data : Bytes} {place : Nat} {piece more : List UInt8}

lemma Placed.append (h : Placed data place piece)
    (hmore : Placed data (place + piece.length) more) : Placed data place (piece ++ more) := by
  obtain ⟨before, after, hdata, rfl⟩ := h
  obtain ⟨before', after', hdata', hlength⟩ := hmore
  have hsame : (before ++ piece) ++ after = before' ++ (more ++ after') := by
    rw [List.append_assoc, ← hdata, hdata']
  have hafter := (List.append_inj hsame (by rw [List.length_append, hlength])).2
  exact ⟨before, after', by rw [hdata, hafter, List.append_assoc], rfl⟩

/-- What stands in a part of the data stands there when the part is cut out. -/
lemma Placed.within (h : Placed data place piece) (offset len : Nat) (hstart : offset ≤ place)
    (hstop : place + piece.length ≤ offset + len) :
    Placed (data.extract offset (offset + len)) (place - offset) piece := by
  obtain ⟨before, after, hdata, rfl⟩ := h
  refine ⟨before.drop offset,
    after.take (len - (before.length - offset) - piece.length), ?_, List.length_drop⟩
  have hfirst : (before.drop offset).length ≤ len := by
    rw [List.length_drop]
    omega
  have hsecond : piece.length ≤ len - (before.length - offset) := by omega
  rw [Array.toList_extract, List.extract_eq_take_drop, hdata, Nat.add_sub_cancel_left,
    List.drop_append_of_le_length hstart, List.take_append, List.take_of_length_le hfirst,
    List.length_drop, List.take_append, List.take_of_length_le hsecond]

lemma Placed.append_right (h : Placed piece.toArray place more) (rest : List UInt8) :
    Placed (piece ++ rest).toArray place more := by
  obtain ⟨before, after, hdata, hlength⟩ := h
  rw [List.toList_toArray] at hdata
  exact ⟨before, after ++ rest, by simp only [hdata, List.append_assoc], hlength⟩

end Placed

section Writes
variable {buffer piece more : List UInt8} {place offset : Nat} {writes : List (Nat × List UInt8)}

lemma length_overwrite (hin : offset + piece.length ≤ buffer.length) :
    (overwrite buffer offset piece).length = buffer.length := by
  simp only [overwrite, List.length_append, List.length_take, List.length_drop]
  omega

lemma placed_overwrite (hin : offset + piece.length ≤ buffer.length) :
    Placed (overwrite buffer offset piece).toArray offset piece :=
  ⟨buffer.take offset, _, rfl, by rw [List.length_take]; omega⟩

lemma Placed.overwrite (h : Placed buffer.toArray place piece)
    (hin : offset + more.length ≤ buffer.length)
    (hapart : Apart (place, piece.length) (offset, more.length)) :
    Placed (overwrite buffer offset more).toArray place piece := by
  obtain ⟨before, after, hbuffer, rfl⟩ := h
  rw [List.toList_toArray] at hbuffer
  subst hbuffer
  rcases hapart with hleft | hright
  · dsimp only at hleft
    have hfirst : before.length ≤ offset := by omega
    have hsecond : piece.length ≤ offset - before.length := by omega
    refine ⟨before, after.take (offset - before.length - piece.length) ++ (more ++
      (before ++ (piece ++ after)).drop (offset + more.length)), ?_, rfl⟩
    rw [List.toList_toArray, Proofs.overwrite, List.take_append, List.take_of_length_le hfirst,
      List.take_append, List.take_of_length_le hsecond]
    simp only [List.append_assoc]
  · dsimp only at hright
    refine ⟨(before ++ (piece ++ after)).take offset ++
      (more ++ before.drop (offset + more.length)), after, ?_, ?_⟩
    · rw [List.toList_toArray, Proofs.overwrite, List.drop_append_of_le_length hright]
      simp only [List.append_assoc]
    · simp only [List.length_append, List.length_take, List.length_drop]
      omega

lemma length_patched (hin : ∀ w ∈ writes, w.1 + w.2.length ≤ buffer.length) :
    (patched buffer writes).length = buffer.length := by
  induction writes generalizing buffer with
  | nil => rfl
  | cons w writes ih =>
    have hlength := length_overwrite (hin w List.mem_cons_self)
    refine (ih ?_).trans hlength
    rw [hlength]
    exact fun w' hw' => hin w' (List.mem_cons_of_mem w hw')

/-- What no write touches stays. -/
lemma Placed.patched (h : Placed buffer.toArray place piece)
    (hin : ∀ w ∈ writes, w.1 + w.2.length ≤ buffer.length)
    (hapart : ∀ w ∈ writes, Apart (place, piece.length) (span w)) :
    Placed (patched buffer writes).toArray place piece := by
  induction writes generalizing buffer with
  | nil => exact h
  | cons w writes ih =>
    have hfirst := hin w List.mem_cons_self
    refine ih (h.overwrite hfirst (hapart w List.mem_cons_self)) ?_ fun w' hw' =>
      hapart w' (List.mem_cons_of_mem w hw')
    rw [length_overwrite hfirst]
    exact fun w' hw' => hin w' (List.mem_cons_of_mem w hw')

/-- Pieces that are apart from each other are all found in the end. -/
lemma placed_patched (hin : ∀ w ∈ writes, w.1 + w.2.length ≤ buffer.length)
    (hapart : writes.Pairwise fun w w' => Apart (span w) (span w')) (hw : (place, piece) ∈ writes) :
    Placed (patched buffer writes).toArray place piece := by
  induction writes generalizing buffer with
  | nil => cases hw
  | cons w writes ih =>
    have hfirst := hin w List.mem_cons_self
    have hrest : ∀ w' ∈ writes,
        w'.1 + w'.2.length ≤ (Proofs.overwrite buffer w.1 w.2).length := by
      rw [length_overwrite hfirst]
      exact fun w' hw' => hin w' (List.mem_cons_of_mem w hw')
    rw [List.pairwise_cons] at hapart
    -- The piece is the one that is written now, and kept from then on, or it is written later.
    rcases List.mem_cons.mp hw with rfl | hlater
    · exact (placed_overwrite hfirst).patched hrest hapart.1
    · exact ih hrest hapart.2 hlater

end Writes

end Hallmark.Proofs
