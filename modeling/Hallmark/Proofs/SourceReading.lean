import Hallmark.Source
import Mathlib.Data.List.Basic
import Mathlib.Tactic.Lemma

/-!
# Reading a source to its end

A source without faults may interrupt reads and cut its content into pieces of any size, but
a pass over it sees every byte once and in order.
-/

namespace Hallmark.Proofs

/-- A source without faults, whose reads give at least one byte while there is one left. -/
structure Steady (s : Source) : Prop where
  failRead : s.failRead = none
  failSeek : s.failSeek = none
  script : .give 0 ∉ s.script
  scripts : ∀ n, .give 0 ∉ s.scripts n

/-- Reading has taken the steady source `s` to the steady source `t`. -/
structure ReadOn (s t : Source) : Prop where
  steady : Steady t
  content : t.content = s.content
  seeks : t.seeks = s.seeks

lemma ReadOn.trans {s t u : Source} (h : ReadOn s t) (h' : ReadOn t u) : ReadOn s u :=
  ⟨h'.steady, h'.content.trans h.content, h'.seeks.trans h.seeks⟩

lemma steady_ofBytes (content : Bytes) : Steady (.ofBytes content) :=
  ⟨rfl, rfl, List.not_mem_nil, fun _ => List.not_mem_nil⟩

namespace Steady
variable {s : Source}

/-- What is delivered stands in front of what is left. -/
lemma deliver (h : Steady s) {most : Nat} (hmost : 0 < most) :
    ∃ bytes t, s.deliver most = (.chunk bytes, t) ∧ ReadOn s t ∧
      bytes.toList ++ t.content.toList.drop t.position = s.content.toList.drop s.position ∧
      (bytes.isEmpty → s.content.size ≤ s.position) := by
  have hfail : ¬s.failRead.any (· ≤ s.position) := by simp [h.failRead]
  have havail : s.available most =
      s.content.extract s.position (min (s.position + most) s.content.size) := by
    simp [Source.available, h.failRead]
  have hsize : (s.available most).size =
      min (s.position + most) s.content.size - s.position := by
    rw [havail, Array.size_extract]
    omega
  refine ⟨s.available most, { s with position := s.position + (s.available most).size },
    by rw [Source.deliver, if_neg hfail], ⟨⟨h.failRead, h.failSeek, h.script, h.scripts⟩, rfl, rfl⟩,
    ?_, ?_⟩
  · have htaken : (s.available most).toList =
        (s.content.toList.drop s.position).take (s.available most).size := by
      rw [hsize, havail, Array.toList_extract, List.extract_eq_take_drop]
    rw [htaken, ← List.drop_drop, List.take_append_drop]
  · intro hempty
    have hzero : (s.available most).size = 0 := by simpa using hempty
    omega

/-- A read of a steady source is interrupted or delivers. -/
lemma read (h : Steady s) {limit : Nat} (hlimit : 0 < limit) :
    (∃ t, s.read limit = (.interrupted, t) ∧ ReadOn s t ∧ t.position = s.position) ∨
    ∃ bytes t, s.read limit = (.chunk bytes, t) ∧ ReadOn s t ∧
      bytes.toList ++ t.content.toList.drop t.position = s.content.toList.drop s.position ∧
      (bytes.isEmpty → s.content.size ≤ s.position) := by
  cases hscript : s.script with
  | nil =>
    right
    rw [Source.read, hscript]
    exact h.deliver hlimit
  | cons step script =>
    have hrest : .give 0 ∉ script := fun hmem => h.script (hscript ▸ List.mem_cons_of_mem step hmem)
    have hnext : Steady { s with script } := ⟨h.failRead, h.failSeek, hrest, h.scripts⟩
    cases step with
    | interrupt =>
      left
      refine ⟨{ s with script }, ?_, ⟨hnext, rfl, rfl⟩, rfl⟩
      rw [Source.read, hscript]
    | give most =>
      right
      have hmost : 0 < most := by
        refine Nat.pos_of_ne_zero fun hzero => h.script ?_
        rw [hscript, hzero]
        exact List.mem_cons_self
      obtain ⟨bytes, t, hread, hon, hrest, hempty⟩ :=
        hnext.deliver (show 0 < min most limit by omega)
      refine ⟨bytes, t, ?_, ⟨hon.steady, hon.content, hon.seeks⟩, hrest, hempty⟩
      rw [Source.read, hscript]
      exact hread

end Steady

section Fold
variable {β : Type} (f : β → UInt8 → β) (state : β) {s t : Source}

lemma fold_of_interrupted (h : s.read Source.bufferSize = (.interrupted, t)) :
    s.fold f state = t.fold f state := by
  rw [Source.fold]
  split
  · next hread =>
    rw [h] at hread
    cases hread
    rfl
  · next hread => simp [h] at hread
  · next hread => simp [h] at hread

lemma fold_of_chunk {bytes : Bytes} (h : s.read Source.bufferSize = (.chunk bytes, t)) :
    s.fold f state =
      if bytes.isEmpty then (.ok state, t) else t.fold f (bytes.foldl f state) := by
  rw [Source.fold]
  split
  · next hread => simp [h] at hread
  · next hread => simp [h] at hread
  · next hread =>
    rw [h] at hread
    cases hread
    rfl

/-- A fold over a steady source is the fold over the bytes that are left. -/
theorem fold_steady (h : Steady s) :
    ∃ t, s.fold f state = (.ok ((s.content.toList.drop s.position).foldl f state), t) ∧
      ReadOn s t := by
  induction hn : s.remaining using Nat.strongRecOn generalizing state s with
  | ind n ih =>
    subst hn
    obtain ⟨t, hread, hon, hposition⟩ | ⟨bytes, t, hread, hon, hrest, hlast⟩ :=
      h.read (show 0 < Source.bufferSize by decide)
    · have hless := Source.remaining_interrupted hread
      obtain ⟨u, hfold, hon'⟩ := ih t.remaining hless state hon.steady rfl
      refine ⟨u, ?_, hon.trans hon'⟩
      rw [fold_of_interrupted f state hread, hfold, hon.content, hposition]
    · rw [fold_of_chunk f state hread]
      cases hempty : bytes.isEmpty with
      | true =>
        refine ⟨t, ?_, hon⟩
        rw [if_pos rfl, List.drop_of_length_le (by simpa using hlast hempty), List.foldl_nil]
      | false =>
        have hless := Source.remaining_chunk hread hempty
        obtain ⟨u, hfold, hon'⟩ := ih t.remaining hless (bytes.foldl f state) hon.steady rfl
        refine ⟨u, ?_, hon.trans hon'⟩
        rw [if_neg Bool.false_ne_true, hfold, ← hrest, List.foldl_append, bytes.foldl_toList]

end Fold

/-- Rewinding a steady source leads back to the start of its content. -/
lemma Steady.rewind {s : Source} (h : Steady s) :
    ∃ t, s.rewind = (.ok (), t) ∧ Steady t ∧ t.content = s.content ∧ t.position = 0 ∧
      t.seeks = s.seeks + 1 := by
  have hfail : ¬s.failSeek = some (s.seeks + 1) := by simp [h.failSeek]
  refine ⟨{ s with seeks := s.seeks + 1, position := 0, script := s.scripts s.seeks },
    by rw [Source.rewind, if_neg hfail], ?_, rfl, rfl, rfl⟩
  exact ⟨h.failRead, h.failSeek, h.scripts s.seeks, h.scripts⟩

end Hallmark.Proofs
