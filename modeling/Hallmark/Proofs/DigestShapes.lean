import Hallmark.Proofs.DigestTexts
import Hallmark.Proofs.FailingSources
import Hallmark.Proofs.Streaming
import Mathlib.Data.List.GetD

/-!
# Shapes of digests

The two strings of a pass stop one letter short of what a digest may hold, whatever bytes the pass
sees, so that the letters of the open pieces still fit. A search only ends with a digest after a
pass that has closed enough pieces.
-/

namespace Hallmark.Proofs
open FuzzyHash

/-! ## Letters -/

section Letters
variable {most : Nat} {letters : Array Char}

lemma letter_mem (hash : UInt32) : letter hash ∈ alphabet := by
  have hmod : (hash % 64).toNat < alphabet.length := by
    rw [UInt32.toNat_mod]
    exact Nat.mod_lt _ (by decide)
  unfold letter
  rw [List.getD_eq_getElem _ _ hmod]
  exact List.getElem_mem hmod

lemma LettersUpTo.push (h : LettersUpTo most letters.toList) (hash : UInt32) :
    LettersUpTo (most + 1) (letters.push (letter hash)).toList := by
  rw [Array.toList_push]
  constructor
  · rw [List.length_append, List.length_singleton]
    exact Nat.add_le_add_right h.1 1
  · intro c hc
    rcases List.mem_append.mp hc with hold | hnew
    · exact h.2 c hold
    · rw [List.mem_singleton.mp hnew]
      exact mem_alphabet_iff.mp (letter_mem hash)

lemma LettersUpTo.mono {more : Nat} {cs : List Char} (h : LettersUpTo most cs)
    (hle : most ≤ more) : LettersUpTo more cs :=
  ⟨h.1.trans hle, h.2⟩

lemma LettersUpTo.close (h : LettersUpTo most letters.toList) (hash : UInt32) :
    LettersUpTo most
      (if letters.size < most then letters.push (letter hash) else letters).toList := by
  split_ifs with hroom
  · refine ⟨?_, (h.push hash).2⟩
    rw [Array.length_toList, Array.size_push]
    exact hroom
  · exact h

end Letters

/-! ## Passes -/

/-- Both strings of a pass stop one letter short of those of a digest. -/
structure Shaped (p : Pass) : Prop where
  first : LettersUpTo 63 p.letters1.toList
  second : LettersUpTo 31 p.letters2.toList

section Passes
variable {p : Pass}

lemma shaped_fresh : Shaped .fresh := by
  constructor <;> exact ⟨Nat.zero_le _, fun _ hc => absurd hc List.not_mem_nil⟩

lemma Shaped.step (h : Shaped p) (size : UInt64) (x : UInt8) : Shaped (p.step size x) := by
  rw [step_eq]
  split_ifs with hfirst hsecond
  · constructor
    · simpa [Pass.absorb] using h.first.close (p.absorb x).piece1
    · simpa [Pass.absorb] using h.second.close (p.absorb x).piece2
  · constructor
    · simpa [Pass.absorb] using h.first.close (p.absorb x).piece1
    · simpa [Pass.absorb] using h.second
  · exact ⟨h.first, h.second⟩

lemma Shaped.over (h : Shaped p) (size : UInt64) (data : List UInt8) :
    Shaped (data.foldl (Pass.step size) p) := by
  induction data generalizing p with
  | nil => exact h
  | cons x data ih => exact ih (h.step size x)

@[simp] lemma finish_blockSize (p : Pass) (size : UInt64) : (p.finish size).blockSize = size := by
  unfold Pass.finish
  split_ifs <;> rfl

/-- With enough pieces closed, the digest has as many letters as the format allows, and no more in
its second string than in its first one. -/
lemma Shaped.finish (h : Shaped p) (size : UInt64) (hmany : 32 ≤ p.letters1.size) :
    LettersUpTo 64 (p.finish size).hash1.toList ∧ LettersUpTo 32 (p.finish size).hash2.toList ∧
      32 ≤ (p.finish size).hash1.length ∧
      (p.finish size).hash2.length ≤ (p.finish size).hash1.length := by
  have hlength1 : p.letters1.toList.length = p.letters1.size := Array.length_toList
  have hlength2 : p.letters2.toList.length = p.letters2.size := Array.length_toList
  have hfew := h.second.1
  unfold Pass.finish
  split_ifs with hzero
  · simp only [String.toList_ofList, String.length_ofList]
    refine ⟨h.first.mono (by decide), h.second.mono (by decide), ?_, ?_⟩ <;> omega
  · simp only [String.toList_ofList, String.length_ofList]
    refine ⟨h.first.push _, h.second.push _, ?_, ?_⟩ <;>
      simp only [Array.length_toList, Array.size_push] <;> omega

end Passes

/-! ## Searches -/

/-- A fold over a source that does not fail is a fold over the bytes that were delivered. -/
lemma exists_delivered {β : Type} {f : β → UInt8 → β} {state out : β} {s t : Source}
    (h : s.fold f state = (.ok out, t)) : ∃ data : List UInt8, out = data.foldl f state := by
  induction state, s using Source.fold.induct (f := f) with
  | case1 state s u hread ih =>
    rw [fold_of_interrupted f state hread] at h
    exact ih h
  | case2 state s u hread =>
    rw [fold_of_failed f state hread] at h
    cases h
  | case3 state s bytes u hread hempty =>
    rw [fold_of_chunk f state hread, if_pos hempty] at h
    cases h
    exact ⟨[], rfl⟩
  | case4 state s bytes u hread hempty ih =>
    rw [fold_of_chunk f state hread, if_neg hempty] at h
    obtain ⟨data, hout⟩ := ih h
    rw [← Array.foldl_toList, ← List.foldl_append] at hout
    exact ⟨bytes.toList ++ data, hout⟩

section Searches
variable {t u v : Search} {n : Nat} {d : Digest} {s : Source}

lemma Reaches.head (hturn : t.turn = .again v) (h : Reaches v n u) : Reaches t (n + 1) u := by
  induction h with
  | start => exact .turn .start hturn
  | turn _ hlast ih => exact .turn ih hlast

/-- The result of a search is that of the last turn. -/
lemma exists_last_turn (t : Search) :
    ∃ n u, Reaches t n u ∧ u.turn = .done t.result.1 t.result.2 := by
  induction t using Search.result.induct with
  | case1 t r s hturn =>
    refine ⟨0, t, .start, ?_⟩
    rw [result_of_done hturn]
    exact hturn
  | case2 t v hturn ih =>
    obtain ⟨n, u, hreach, hlast⟩ := ih
    refine ⟨n + 1, u, hreach.head hturn, ?_⟩
    rw [result_of_again hturn]
    exact hlast

lemma rewound_of_again (hturn : u.turn = .again v) : v.pass.rewound = .fresh := by
  unfold Search.turn at hturn
  split at hturn
  · cases hturn
  · split_ifs at hturn
    split at hturn
    · cases hturn
    · split_ifs at hturn
      cases hturn
      rfl

/-- A digest comes from a pass over some bytes that has closed enough pieces. -/
lemma exists_pass_of_done (hturn : u.turn = .done (.ok d) s) :
    ¬u.size < minBlockSize ∧ ∃ data : List UInt8,
      32 ≤ (data.foldl (Pass.step u.size) u.pass.rewound).letters1.size ∧
      d = (data.foldl (Pass.step u.size) u.pass.rewound).finish u.size := by
  unfold Search.turn at hturn
  split at hturn
  · cases hturn
  · split_ifs at hturn with hsmall
    · cases hturn
    · refine ⟨hsmall, ?_⟩
      split at hturn
      · cases hturn
      · next hfold =>
        obtain ⟨data, rfl⟩ := exists_delivered hfold
        split_ifs at hturn with hfew
        cases hturn
        exact ⟨data, Nat.not_lt.mp hfew, rfl⟩

/-- Every pass of a search starts afresh if the first one does. -/
lemma reaches_fresh (hfresh : t.pass.rewound = .fresh) (h : Reaches t n u) :
    u.pass.rewound = .fresh := by
  cases h with
  | start => exact hfresh
  | turn _ hturn => exact rewound_of_again hturn

lemma reaches_shaped (hfresh : t.pass.rewound = .fresh) (h : Reaches t n u) (data : List UInt8) :
    Shaped (data.foldl (Pass.step u.size) u.pass.rewound) := by
  rw [reaches_fresh hfresh h]
  exact shaped_fresh.over u.size data

lemma ofSource_eq_ok {len : UInt64} (h : ofSource s len = .ok (some d)) :
    (Search.result ⟨initialBlockSize len, .fresh, s⟩).1 = .ok d := by
  unfold ofSource run at h
  split_ifs at h with hshort
  · cases h
  · split at h
    · next hresult =>
      cases h
      rw [hresult]
    · cases h

end Searches

/-- Whatever a source delivers and whatever length it states, a digest that is made of it is read
back from its text. Its block size is one of those of the search, and its strings have the lengths
that the format allows, the first one at least half of them. At no point of any pass do the strings
hold more than 63 and 31 letters. -/
theorem digests_have_shape (s : Source) (len : UInt64) :
    (∀ d, ofSource s len = .ok (some d) → Digest.parse? d.text = some d ∧
      (∃ k, d.blockSize.toNat = 3 * 2 ^ k) ∧ d.blockSize ≤ initialBlockSize len ∧
      32 ≤ d.hash1.length ∧ d.hash1.length ≤ 64 ∧ d.hash2.length ≤ 32 ∧
      d.hash2.length ≤ d.hash1.length) ∧
    ∀ n u, Reaches ⟨initialBlockSize len, .fresh, s⟩ n u → ∀ data : List UInt8,
      (data.foldl (Pass.step u.size) u.pass.rewound).letters1.size ≤ 63 ∧
      (data.foldl (Pass.step u.size) u.pass.rewound).letters2.size ≤ 31 := by
  constructor
  · intro d hd
    obtain ⟨n, u, hreach, hlast⟩ := exists_last_turn ⟨initialBlockSize len, .fresh, s⟩
    rw [ofSource_eq_ok hd] at hlast
    obtain ⟨hlarge, data, hmany, rfl⟩ := exists_pass_of_done hlast
    have hshaped := reaches_shaped rfl hreach data
    obtain ⟨hfirst, hsecond, hlong, hless⟩ := hshaped.finish u.size hmany
    obtain ⟨K, -, hinitial, -⟩ := initialBlockSize_spec len
    -- Below the least block size there is no pass, and so no digest.
    have hsize : ∃ k ≤ K, u.size.toNat = 3 * 2 ^ k := by
      rcases reaches_size hinitial hreach with ⟨-, hval⟩ | ⟨-, hone⟩
      · exact ⟨K - n, Nat.sub_le K n, hval⟩
      · rw [hone] at hlarge
        exact absurd (by decide) hlarge
    obtain ⟨k, hk, hval⟩ := hsize
    rw [finish_blockSize]
    refine ⟨parse?_text ⟨⟨k, ?_⟩, hfirst, hsecond⟩, ⟨k, hval⟩, ?_, hlong, hfirst.1, hsecond.1,
      hless⟩
    · rw [finish_blockSize]
      exact hval
    · rw [UInt64.le_iff_toNat_le, hval, hinitial]
      exact blockSize_mono hk
  · intro n u hreach data
    have hshaped := reaches_shaped rfl hreach data
    exact ⟨hshaped.first.1, hshaped.second.1⟩

/-- A digest of a source that delivers its content in pieces, and the passes of its search. -/
theorem digests_have_shape_halting :
    (∃ d, ofSource halting (UInt64.ofNat fours.size) = .ok (some d) ∧
      Digest.parse? d.text = some d ∧ 32 ≤ d.hash1.length ∧ d.hash1.length ≤ 64 ∧
      d.hash2.length ≤ 32 ∧ d.hash2.length ≤ d.hash1.length) ∧
    (fours.toList.foldl (Pass.step 96) .fresh).letters1.size ≤ 63 ∧
    (fours.toList.foldl (Pass.step 96) .fresh).letters2.size ≤ 31 := by
  obtain ⟨hdigest, hpass⟩ := digests_have_shape halting (UInt64.ofNat fours.size)
  obtain ⟨d, hd⟩ := exists_digest_fours
  have hhalting : ofSource halting (UInt64.ofNat fours.size) = .ok (some d) := by
    rw [← hd]
    exact ofSource_eq_ofBytes steady_halting
  obtain ⟨hparse, -, -, hlong, hfirst, hsecond, hless⟩ := hdigest d hhalting
  have hinitial : initialBlockSize (UInt64.ofNat fours.size) = 96 := by
    rw [fours, Array.size_replicate]
    decide +kernel
  have hfours := hpass 0 _ .start fours.toList
  rw [hinitial] at hfours
  exact ⟨⟨d, hhalting, hparse, hlong, hfirst, hsecond, hless⟩, hfours⟩

end Hallmark.Proofs
