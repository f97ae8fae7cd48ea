import Mathlib.Data.List.Basic
import Mathlib.Tactic.Lemma

/-!
# Runs with a state

How a run that keeps its state when it fails is put together from the runs of its parts.
-/

namespace Hallmark.Proofs
variable {ε σ α β γ : Type}

lemma bind_ok {x : Except ε α} {f : α → Except ε β} {b : β} :
    (x >>= f) = .ok b ↔ ∃ a, x = .ok a ∧ f a = .ok b := by
  cases x <;> simp [bind, Except.bind]

lemma bind_error {x : Except ε α} {f : α → Except ε β} {e : ε} :
    (x >>= f) = .error e ↔ x = .error e ∨ ∃ a, x = .ok a ∧ f a = .error e := by
  cases x <;> simp [bind, Except.bind]

lemma mapM_ok {f : α → Except ε β} {g : α → β} {as : List α} (h : ∀ a ∈ as, f a = .ok (g a)) :
    as.mapM f = .ok (as.map g) := by
  induction as with
  | nil => rfl
  | cons a as ih =>
    rw [List.mapM_cons, h a List.mem_cons_self, ih fun b hb => h b (List.mem_cons_of_mem a hb)]
    rfl

lemma mapM_map_ok {f : β → Except ε γ} {r : α → β} {g : α → γ} {as : List α}
    (h : ∀ a ∈ as, f (r a) = .ok (g a)) : (as.map r).mapM f = .ok (as.map g) := by
  rw [List.mapM_map]
  exact mapM_ok h

lemma forM_ok {f : α → Except ε PUnit} {as : List α} (h : ∀ a ∈ as, f a = .ok ()) :
    as.forM f = .ok () := by
  induction as with
  | nil => rfl
  | cons a as ih =>
    rw [List.forM, h a List.mem_cons_self]
    exact ih fun b hb => h b (List.mem_cons_of_mem a hb)

lemma toOption_eq_some {x : Except ε α} {a : α} : x.toOption = some a ↔ x = .ok a := by
  cases x <;> simp [Except.toOption]

lemma run_ofExcept (x : Except ε α) (s : σ) :
    (ofExcept x : EStateM ε σ α).run s =
      match x with
      | .ok a => .ok a s
      | .error e => .error e s := by
  cases x <;> rfl

lemma ofExcept_bind (x : Except ε α) (f : α → Except ε β) :
    (ofExcept (x >>= f) : EStateM ε σ β) = ofExcept x >>= fun a => ofExcept (f a) := by
  cases x <;> rfl

lemma ofExcept_pure (a : α) : (ofExcept (pure a : Except ε α) : EStateM ε σ α) = pure a := rfl

lemma except_ok_bind (a : α) (f : α → Except ε β) : (.ok a >>= f) = f a := rfl

lemma ofExcept_ok_bind (a : α) (f : α → EStateM ε σ β) :
    (ofExcept (.ok a : Except ε α) >>= f) = f a := rfl

lemma run_ofExcept_ok {x : Except ε α} {a : α} {s t : σ} :
    (ofExcept x : EStateM ε σ α).run s = .ok a t ↔ x = .ok a ∧ t = s := by
  cases x <;> simp [run_ofExcept, eq_comm]

/-- A sequence succeeds exactly when both of its parts do. -/
lemma run_bind_ok {x : EStateM ε σ α} {f : α → EStateM ε σ β} {b : β} {s t : σ} :
    (x >>= f).run s = .ok b t ↔ ∃ a u, x.run s = .ok a u ∧ (f a).run u = .ok b t := by
  rw [EStateM.run_bind]
  cases x.run s <;> simp

lemma run_bind_error {x : EStateM ε σ α} {f : α → EStateM ε σ β} {e : ε} {s t : σ} :
    (x >>= f).run s = .error e t ↔
      x.run s = .error e t ∨ ∃ a u, x.run s = .ok a u ∧ (f a).run u = .error e t := by
  rw [EStateM.run_bind]
  cases x.run s <;> simp

lemma forM_cons_eq {f : α → EStateM ε σ PUnit} {a : α} {l : List α} :
    (a :: l).forM f = f a >>= fun _ => l.forM f := rfl

end Hallmark.Proofs
