import Hallmark.Proofs.BlockSizeSearch

/-!
# Digests of streams

The passes of a search see the same bytes however a source hands them out: from wherever it stood
before, in pieces of any size, each behind any number of interruptions, and differently in every
pass. A pass is over after finitely many reads, so a script can tell all of this. The stated length
decides nothing but whether there is a search and where it starts.
-/

namespace Hallmark.Proofs
open FuzzyHash

section Sources
variable {s t : Source} {len other : UInt64}

/-- For a steady source only its content counts, and of a stated length only the block size. -/
lemma ofSource_congr (hs : Steady s) (ht : Steady t) (hcontent : s.content = t.content)
    (hlen : ¬len < minLength) (hother : ¬other < minLength)
    (hinitial : initialBlockSize len = initialBlockSize other) :
    ofSource s len = ofSource t other := by
  obtain ⟨K, -, hsize, -⟩ := initialBlockSize_spec len
  have hsame : (initialBlockSize other).toNat = blockSize K := by
    rw [← hinitial]
    exact hsize
  rw [ofSource_of_long hs hlen hsize, ofSource_of_long ht hother hsame, hcontent]

lemma ofSource_eq_ofBytes (hs : Steady s) :
    ofSource s (UInt64.ofNat s.content.size) = ofBytes s.content := by
  by_cases hshort : UInt64.ofNat s.content.size < minLength
  · rw [ofBytes, ofSource_of_short _ hshort, ofSource_of_short _ hshort]
  · exact ofSource_congr hs (steady_ofBytes s.content) rfl hshort hshort rfl

end Sources

/-- The digest of a source that states its own length is the digest of its content, whatever the
pieces and the interruptions. Under another length, if it is enough for a digest, the result is
the same for all sources with that content and for all lengths with that initial block size. -/
theorem streaming_keeps_digest (data : Bytes) :
    (∀ s, Steady s → s.content = data → ofSource s (UInt64.ofNat data.size) = ofBytes data) ∧
      ∀ s t len other, Steady s → Steady t → s.content = data → t.content = data →
        minLength ≤ len → minLength ≤ other → initialBlockSize len = initialBlockSize other →
          ofSource s len = ofSource t other := by
  constructor
  · intro s hs hcontent
    rw [← hcontent]
    exact ofSource_eq_ofBytes hs
  · intro s t len other hs ht hsdata htdata hlen hother hinitial
    apply ofSource_congr hs ht (hsdata.trans htdata.symm) _ _ hinitial
    · exact UInt64.not_lt.mpr hlen
    · exact UInt64.not_lt.mpr hother

/-- A source that stands in the midst of its content. Its reads are interrupted and short, and
differ from pass to pass. -/
def halting : Source :=
  { Source.ofBytes fours with
    position := 1000
    script := [.interrupt, .give 1]
    scripts := fun n => [.interrupt, .give (n + 1), .interrupt, .interrupt, .give 4000] }

lemma steady_halting : Steady halting :=
  ⟨rfl, rfl, by decide, fun n => by simp [halting]⟩

/-- With its own length this source has the digest of its content, and two greater lengths, neither
of which is that of the content, lead to one result. -/
theorem streaming_keeps_digest_halting :
    Steady halting ∧ halting.content = fours ∧
      (∃ d, ofSource halting (UInt64.ofNat fours.size) = .ok (some d) ∧
        ofBytes fours = .ok (some d)) ∧
      minLength ≤ 5000 ∧ minLength ≤ 6000 ∧ initialBlockSize 5000 = initialBlockSize 6000 ∧
      ofSource halting 5000 = ofSource (.ofBytes fours) 6000 := by
  obtain ⟨hown, hother⟩ := streaming_keeps_digest fours
  obtain ⟨d, hd⟩ := exists_digest_fours
  have hinitial : initialBlockSize 5000 = initialBlockSize 6000 := by decide +kernel
  refine ⟨steady_halting, rfl, ⟨d, ?_, hd⟩, by decide, by decide, hinitial, ?_⟩
  · rw [← hd]
    exact hown halting steady_halting rfl
  · apply hother halting (.ofBytes fours) 5000 6000 steady_halting (steady_ofBytes fours) rfl rfl
    · decide
    · decide
    · exact hinitial

end Hallmark.Proofs
