import Hallmark.Proofs.SourceReading
import Mathlib.Algebra.Order.Group.Nat
import Mathlib.Tactic.SplitIfs

/-!
# Sources that fail

A pass over a source does not notice a fault that none of its reads meets, and ends with a fault
that its reads come to.
-/

namespace Hallmark.Proofs

/-! ## Changes that reads do not notice -/

/-- No read of a source with `P` notices the change `g`, and `P` holds on. -/
structure Unnoticed (g : Source → Source) (P : Source → Prop) : Prop where
  keeps : ∀ t, P t → P (t.read Source.bufferSize).2
  read : ∀ t, P t → (g t).read Source.bufferSize =
    ((t.read Source.bufferSize).1, g (t.read Source.bufferSize).2)

section Fold
variable {β : Type} (f : β → UInt8 → β) (state : β) {P : Source → Prop} {s t : Source}

lemma fold_of_failed (h : s.read Source.bufferSize = (.failed, t)) :
    s.fold f state = (.error .read, t) := by
  rw [Source.fold]
  split
  · next hread => simp [h] at hread
  · next hread =>
    rw [h] at hread
    cases hread
    rfl
  · next hread => simp [h] at hread

/-- What every read keeps, a fold over the source keeps. -/
lemma fold_keeps (hkeep : ∀ t, P t → P (t.read Source.bufferSize).2) (hs : P s) :
    P (s.fold f state).2 := by
  induction state, s using Source.fold.induct (f := f) with
  | case1 state s t hread ih =>
    rw [fold_of_interrupted f state hread]
    apply ih
    simpa only [hread] using hkeep s hs
  | case2 state s t hread =>
    rw [fold_of_failed f state hread]
    simpa only [hread] using hkeep s hs
  | case3 state s bytes t hread hempty =>
    rw [fold_of_chunk f state hread, if_pos hempty]
    simpa only [hread] using hkeep s hs
  | case4 state s bytes t hread hempty ih =>
    rw [fold_of_chunk f state hread, if_neg hempty]
    apply ih
    simpa only [hread] using hkeep s hs

lemma Unnoticed.fold {g : Source → Source} (h : Unnoticed g P) (hs : P s) :
    (g s).fold f state = ((s.fold f state).1, g (s.fold f state).2) := by
  induction state, s using Source.fold.induct (f := f) with
  | case1 state s t hread ih =>
    have hnext := h.read s hs
    rw [hread] at hnext
    rw [fold_of_interrupted f state hread, fold_of_interrupted f state hnext]
    apply ih
    simpa only [hread] using h.keeps s hs
  | case2 state s t hread =>
    have hnext := h.read s hs
    rw [hread] at hnext
    rw [fold_of_failed f state hread, fold_of_failed f state hnext]
  | case3 state s bytes t hread hempty =>
    have hnext := h.read s hs
    rw [hread] at hnext
    rw [fold_of_chunk f state hread, fold_of_chunk f state hnext, if_pos hempty, if_pos hempty]
  | case4 state s bytes t hread hempty ih =>
    have hnext := h.read s hs
    rw [hread] at hnext
    rw [fold_of_chunk f state hread, fold_of_chunk f state hnext, if_neg hempty, if_neg hempty]
    apply ih
    simpa only [hread] using h.keeps s hs

end Fold

/-- A read changes the position and the script of its source only. -/
lemma read_source (s : Source) (limit : Nat) :
    ∃ position script, (s.read limit).2 = { s with position, script } := by
  unfold Source.read Source.deliver
  split
  · exact ⟨_, _, rfl⟩
  · split <;> exact ⟨_, _, rfl⟩
  · split <;> exact ⟨_, _, rfl⟩

/-- The source `s` with another script for the reads to come. -/
def scripted (script : List ReadStep) (s : Source) : Source := { s with script }

/-- A change that leaves scripts alone goes unnoticed when no delivery notices it. -/
lemma Unnoticed.of_deliver {g : Source → Source} {P : Source → Prop}
    (hP : ∀ script t, P t → P (scripted script t)) (hscript : ∀ t, (g t).script = t.script)
    (hg : ∀ script t, scripted script (g t) = g (scripted script t))
    (hdeliver : ∀ most t, P t → P (t.deliver most).2 ∧
      (g t).deliver most = ((t.deliver most).1, g (t.deliver most).2)) : Unnoticed g P := by
  have hread : ∀ limit t, P t → P (t.read limit).2 ∧
      (g t).read limit = ((t.read limit).1, g (t.read limit).2) := by
    intro limit t ht
    unfold Source.read
    rw [hscript]
    cases t.script with
    | nil => exact hdeliver limit t ht
    | cons step script =>
      have hnext : P (scripted script t) := hP script t ht
      cases step with
      | interrupt => exact ⟨hnext, congrArg (Prod.mk _) (hg script t)⟩
      | give most =>
        change P ((scripted script t).deliver (min most limit)).2 ∧
          (scripted script (g t)).deliver (min most limit) = _
        rw [hg]
        exact hdeliver (min most limit) (scripted script t) hnext
  exact ⟨fun t ht => (hread _ t ht).1, fun t ht => (hread _ t ht).2⟩

/-- The source that `s` becomes when its seek with the number `n` fails. -/
def failingSeek (n : Nat) (s : Source) : Source := { s with failSeek := some n }

/-- The source that `s` becomes when its reads fail from `place` on. -/
def failingRead (place : Nat) (s : Source) : Source := { s with failRead := some place }

lemma unnoticed_failingSeek (n : Nat) : Unnoticed (failingSeek n) fun _ => True := by
  apply Unnoticed.of_deliver
  · intro script t _
    trivial
  · intro t
    rfl
  · intro script t
    rfl
  · intro most t _
    refine ⟨trivial, ?_⟩
    by_cases hfail : t.failRead.any (· ≤ t.position)
    · have hfail' : (failingSeek n t).failRead.any (· ≤ (failingSeek n t).position) := hfail
      rw [Source.deliver, Source.deliver, if_pos hfail, if_pos hfail']
    · have hfail' : ¬(failingSeek n t).failRead.any (· ≤ (failingSeek n t).position) := hfail
      rw [Source.deliver, Source.deliver, if_neg hfail, if_neg hfail']
      rfl

/-- A source without faults in reads that stands in its content, all of which lies before `place`. -/
structure Before (place : Nat) (s : Source) : Prop where
  failRead : s.failRead = none
  position : s.position ≤ s.content.size
  content : s.content.size < place

lemma unnoticed_failingRead (place : Nat) : Unnoticed (failingRead place) (Before place) := by
  apply Unnoticed.of_deliver
  · intro script t ht
    exact ⟨ht.failRead, ht.position, ht.content⟩
  · intro t
    rfl
  · intro script t
    rfl
  · intro most t ht
    have hposition := ht.position
    have hcontent := ht.content
    have hnone : ¬t.failRead.any (· ≤ t.position) := by simp [ht.failRead]
    have hfree : ¬(failingRead place t).failRead.any (· ≤ (failingRead place t).position) := by
      change ¬decide (place ≤ t.position) = true
      rw [decide_eq_true_eq]
      omega
    have hsame : (failingRead place t).available most = t.available most := by
      simp only [Source.available, failingRead, ht.failRead]
      congr 1
      omega
    have hend : t.position + (t.available most).size ≤ t.content.size := by
      simp only [Source.available, ht.failRead, Array.size_extract]
      omega
    rw [Source.deliver, Source.deliver, if_neg hnone, if_neg hfree, hsame]
    exact ⟨⟨ht.failRead, hend, hcontent⟩, rfl⟩

/-! ## Reads that come to a fault -/

section Reaching
variable {place : Nat}

/-- A source without other faults whose reads fail from `place` on, which they can still reach. -/
structure Reaching (place : Nat) (s : Source) : Prop where
  failRead : s.failRead = some place
  position : s.position ≤ place
  content : place ≤ s.content.size
  script : .give 0 ∉ s.script

/-- A read gets no further than to the fault, and gives something before it. -/
def StaysReaching (place : Nat) : Source.Outcome × Source → Prop
  | (.interrupted, t) => Reaching place t
  | (.failed, _) => True
  | (.chunk bytes, t) => ¬bytes.isEmpty ∧ Reaching place t

lemma Reaching.deliver {s : Source} (h : Reaching place s) {most : Nat} (hmost : 0 < most) :
    StaysReaching place (s.deliver most) := by
  have hposition := h.position
  have hcontent := h.content
  by_cases hfail : s.failRead.any (· ≤ s.position)
  · rw [Source.deliver, if_pos hfail]
    trivial
  · have hbefore : s.position < place := by simpa [h.failRead] using hfail
    have hsize : (s.available most).size = min (s.position + most) place - s.position := by
      simp only [Source.available, h.failRead, Array.size_extract]
      omega
    rw [Source.deliver, if_neg hfail]
    refine ⟨?_, h.failRead, ?_, hcontent, h.script⟩
    · intro hempty
      have hzero : (s.available most).size = 0 := by simpa using hempty
      omega
    · dsimp only
      omega

lemma Reaching.read {s : Source} (h : Reaching place s) {limit : Nat} (hlimit : 0 < limit) :
    StaysReaching place (s.read limit) := by
  cases hscript : s.script with
  | nil =>
    rw [Source.read, hscript]
    exact h.deliver hlimit
  | cons step script =>
    have hrest : .give 0 ∉ script := fun hmem => h.script (hscript ▸ List.mem_cons_of_mem step hmem)
    have hnext : Reaching place (scripted script s) := ⟨h.failRead, h.position, h.content, hrest⟩
    rw [Source.read, hscript]
    cases step with
    | interrupt => exact hnext
    | give most =>
      have hmost : 0 < most := by
        refine Nat.pos_of_ne_zero fun hzero => h.script ?_
        rw [hscript, hzero]
        exact List.mem_cons_self
      exact hnext.deliver (show 0 < min most limit by omega)

/-- A pass over a source whose reads fail somewhere in its content ends with this failure. -/
lemma Reaching.fold {β : Type} (f : β → UInt8 → β) (state : β) {s : Source}
    (h : Reaching place s) : ∃ t, s.fold f state = (.error .read, t) := by
  induction state, s using Source.fold.induct (f := f) with
  | case1 state s t hread ih =>
    have hnext := h.read (show 0 < Source.bufferSize by decide)
    rw [hread] at hnext
    rw [fold_of_interrupted f state hread]
    exact ih hnext
  | case2 state s t hread => exact ⟨t, fold_of_failed f state hread⟩
  | case3 state s bytes t hread hempty =>
    have hnext := h.read (show 0 < Source.bufferSize by decide)
    rw [hread] at hnext
    exact absurd hempty hnext.1
  | case4 state s bytes t hread hempty ih =>
    have hnext := h.read (show 0 < Source.bufferSize by decide)
    rw [hread] at hnext
    rw [fold_of_chunk f state hread, if_neg hempty]
    exact ih hnext.2

end Reaching

end Hallmark.Proofs
