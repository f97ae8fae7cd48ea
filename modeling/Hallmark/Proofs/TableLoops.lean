import Hallmark.Proofs.StatefulRuns
import Mathlib.Algebra.Order.Ring.Nat

/-!
# Loops over tables

A loop that goes through a table in steps of equal size collects what it finds in the rows. It ends
well behind rows that are all in order, and fails at the first fault behind such rows.
-/

namespace Hallmark.Proofs
variable {ε α β : Type}

/-- The rows stand one behind the other, the first one at `offset`. -/
def Strided (row : Nat → α → Prop) (stride offset : Nat) (rows : List α) : Prop :=
  ∀ i (h : i < rows.length), row (offset + stride * i) rows[i]

section Strided
variable {row : Nat → α → Prop} {stride offset : Nat} {a : α} {rows : List α}

lemma strided_nil : Strided row stride offset [] := by
  intro i h
  simp at h

lemma strided_cons :
    Strided row stride offset (a :: rows) ↔
      row offset a ∧ Strided row stride (offset + stride) rows := by
  have hplace (i : Nat) : offset + stride * (i + 1) = offset + stride + stride * i := by
    rw [Nat.mul_succ]
    omega
  constructor
  · intro h
    refine ⟨by simpa using h 0 (Nat.zero_lt_succ _), fun i hi => ?_⟩
    have hnext := h (i + 1) (Nat.succ_lt_succ hi)
    rw [hplace] at hnext
    exact hnext
  · rintro ⟨hfirst, hrest⟩ i hi
    cases i with
    | zero => simpa using hfirst
    | succ i =>
      rw [hplace]
      exact hrest i (Nat.lt_of_succ_lt_succ hi)

lemma Strided.of_mem (h : Strided row stride offset rows) (ha : a ∈ rows) : ∃ o, row o a := by
  obtain ⟨i, hi, rfl⟩ := List.mem_iff_getElem.mp ha
  exact ⟨_, h i hi⟩

end Strided

/-- The loop does `body` at one place after the other, as long as there is more to do. -/
structure Strides (body : Nat → EStateM ε (Array β) Bool) (loop : Nat → EStateM ε (Array β) Unit)
    (stride bound : Nat) : Prop where
  turn : ∀ o, loop o = body o >>= fun more => if more then loop (o + stride) else pure ()
  inside : ∀ o s t, (body o).run s = .ok true t → o < bound
  pos : 0 < stride

/-- What is collected at a place: the entries of a row that is in order and does not exceed the
limit, nothing behind the last row, and otherwise the entries in front of a fault. -/
structure Collects (body : Nat → EStateM ε (Array β) Bool) (limit : Nat) (row : Nat → α → Prop)
    (entries : α → List β) (stop : Nat → Prop) (fault : Nat → Nat → List β → ε → Prop) : Prop where
  more : ∀ o s t, s.size ≤ limit → ((body o).run s = .ok true t ↔
    ∃ a, row o a ∧ s.size + (entries a).length ≤ limit ∧ t = s ++ (entries a).toArray)
  done : ∀ o s t, s.size ≤ limit → ((body o).run s = .ok false t ↔ stop o ∧ t = s)
  fails : ∀ o s e t, s.size ≤ limit → ((body o).run s = .error e t ↔
    ∃ found, fault s.size o found e ∧ t = s ++ found.toArray)

/-- How a loop ends with its last turn; none if that is not the last one. -/
def lastTurn {σ : Type} : EStateM.Result ε σ Bool → Option (EStateM.Result ε σ Unit)
  | .ok true _ => none
  | .ok false t => some (.ok () t)
  | .error e t => some (.error e t)

section Loop
variable {body : Nat → EStateM ε (Array β) Bool} {loop : Nat → EStateM ε (Array β) Unit}
  {stride bound limit : Nat} {row : Nat → α → Prop} {entries : α → List β} {stop : Nat → Prop}
  {fault : Nat → Nat → List β → ε → Prop} {s t : Array β} {e : ε}

lemma Strides.run_more (h : Strides body loop stride bound) {o : Nat}
    (hbody : (body o).run s = .ok true t) : (loop o).run s = (loop (o + stride)).run t := by
  rw [h.turn, EStateM.run_bind, hbody]
  rfl

lemma Strides.run_last (h : Strides body loop stride bound) {o : Nat}
    {r : EStateM.Result ε (Array β) Unit} (hlast : lastTurn ((body o).run s) = some r) :
    (loop o).run s = r := by
  rw [h.turn, EStateM.run_bind]
  cases hbody : (body o).run s with
  | error e t =>
    rw [hbody] at hlast
    cases hlast
    rfl
  | ok more t =>
    rw [hbody] at hlast
    cases more
    · cases hlast
      rfl
    · cases hlast

lemma next_place (o stride n : Nat) : o + stride * (n + 1) = o + stride + stride * n := by
  rw [Nat.mul_succ]
  omega

/-- A loop ends as its last turn does, behind rows that are in order. -/
lemma Strides.run_iff (h : Strides body loop stride bound)
    (hbody : Collects body limit row entries stop fault) {o : Nat} (hs : s.size ≤ limit)
    {r : EStateM.Result ε (Array β) Unit} :
    (loop o).run s = r ↔ ∃ rows, Strided row stride o rows ∧
      s.size + (rows.flatMap entries).length ≤ limit ∧
      lastTurn ((body (o + stride * rows.length)).run (s ++ (rows.flatMap entries).toArray)) =
        some r := by
  constructor
  · -- By the distance to the bound, which every row that is taken brings the loop closer to.
    intro hrun
    induction hn : bound - o using Nat.strong_induction_on generalizing o s with
    | _ n ih =>
    cases hturn : lastTurn ((body o).run s) with
    | some r' =>
      have hsame : r' = r := (h.run_last hturn).symm.trans hrun
      exact ⟨[], strided_nil, by simpa using hs, by simpa [hsame] using hturn⟩
    | none =>
      obtain ⟨t, hmore⟩ : ∃ t, (body o).run s = .ok true t := by
        revert hturn
        rcases (body o).run s with ⟨_ | _, t⟩ | ⟨e, t⟩ <;> simp [lastTurn]
      have hinside := h.inside o s t hmore
      have hpos := h.pos
      rw [h.run_more hmore] at hrun
      obtain ⟨a, hrow, hlimit, rfl⟩ := (hbody.more o s t hs).mp hmore
      obtain ⟨rows, hrows, htotal, hlast⟩ := ih (bound - (o + stride)) (by omega)
        (by simpa using hlimit) hrun rfl
      refine ⟨a :: rows, strided_cons.mpr ⟨hrow, hrows⟩, ?_, ?_⟩
      · simpa [Nat.add_assoc] using htotal
      · rw [List.length_cons, next_place]
        simpa using hlast
  · rintro ⟨rows, hrows, htotal, hlast⟩
    induction rows generalizing o s with
    | nil => exact h.run_last (by simpa using hlast)
    | cons a rows ih =>
      obtain ⟨hrow, hrows⟩ := strided_cons.mp hrows
      simp only [List.flatMap_cons, List.length_append, ← Nat.add_assoc] at htotal
      have hmore := (hbody.more o s _ hs).mpr ⟨a, hrow, by omega, rfl⟩
      rw [h.run_more hmore]
      refine ih ?_ hrows (by simpa using htotal) ?_
      · simp only [Array.size_append, List.size_toArray]
        omega
      · rw [List.length_cons, next_place] at hlast
        simpa using hlast

lemma lastTurn_ok {r : EStateM.Result ε (Array β) Bool} :
    lastTurn r = some (.ok () t) ↔ r = .ok false t := by
  rcases r with ⟨_ | _, u⟩ | ⟨e, u⟩ <;> simp [lastTurn]

lemma lastTurn_error {r : EStateM.Result ε (Array β) Bool} :
    lastTurn r = some (.error e t) ↔ r = .error e t := by
  rcases r with ⟨_ | _, u⟩ | ⟨e, u⟩ <;> simp [lastTurn]

lemma size_append_le {xs : List β} (h : s.size + xs.length ≤ limit) :
    (s ++ xs.toArray).size ≤ limit := by
  rwa [Array.size_append, List.size_toArray]

/-- A loop that ends well has collected the entries of all rows. -/
theorem Strides.run_ok_iff (h : Strides body loop stride bound)
    (hbody : Collects body limit row entries stop fault) {o : Nat} (hs : s.size ≤ limit) :
    (loop o).run s = .ok () t ↔ ∃ rows, Strided row stride o rows ∧
      stop (o + stride * rows.length) ∧ s.size + (rows.flatMap entries).length ≤ limit ∧
      t = s ++ (rows.flatMap entries).toArray := by
  rw [h.run_iff hbody hs]
  constructor
  · rintro ⟨rows, hrows, htotal, hlast⟩
    obtain ⟨hstop, rfl⟩ := (hbody.done _ _ _ (size_append_le htotal)).mp (lastTurn_ok.mp hlast)
    exact ⟨rows, hrows, hstop, htotal, rfl⟩
  · rintro ⟨rows, hrows, hstop, htotal, rfl⟩
    refine ⟨rows, hrows, htotal, lastTurn_ok.mpr ?_⟩
    exact (hbody.done _ _ _ (size_append_le htotal)).mpr ⟨hstop, rfl⟩

/-- A loop that fails has collected the entries of the rows in front of the fault. -/
theorem Strides.run_error_iff (h : Strides body loop stride bound)
    (hbody : Collects body limit row entries stop fault) {o : Nat} (hs : s.size ≤ limit) :
    (loop o).run s = .error e t ↔ ∃ rows found, Strided row stride o rows ∧
      s.size + (rows.flatMap entries).length ≤ limit ∧
      fault (s.size + (rows.flatMap entries).length) (o + stride * rows.length) found e ∧
      t = s ++ (rows.flatMap entries ++ found).toArray := by
  rw [h.run_iff hbody hs]
  constructor
  · rintro ⟨rows, hrows, htotal, hlast⟩
    obtain ⟨found, hfault, rfl⟩ :=
      (hbody.fails _ _ _ _ (size_append_le htotal)).mp (lastTurn_error.mp hlast)
    refine ⟨rows, found, hrows, htotal, ?_, by simp⟩
    simpa using hfault
  · rintro ⟨rows, found, hrows, htotal, hfault, rfl⟩
    refine ⟨rows, hrows, htotal, lastTurn_error.mpr ?_⟩
    refine (hbody.fails _ _ _ _ (size_append_le htotal)).mpr ⟨found, ?_, by simp⟩
    simpa using hfault

end Loop
end Hallmark.Proofs
