import Hallmark.Fingerprint
import Mathlib.Control.Monad.Basic
import Mathlib.Tactic.Lemma

/-!
# Failed parts

A part of a fingerprint that fails leaves its error under its own component. The errors of a file are
those of the fuzzy digest and then those of its structure, so a failure of any other component is one
of the structure.
-/

namespace Hallmark.Proofs

def Failed (component : HashComponent) (errors : List HashError) : Prop :=
  ∃ e ∈ errors, e.component = component

lemma failed_append {c : HashComponent} {errors more : List HashError} :
    Failed c (errors ++ more) ↔ Failed c errors ∨ Failed c more := by
  simp only [Failed, List.mem_append, or_and_right, exists_or]

lemma not_failed_nil {c : HashComponent} : ¬Failed c [] := by
  simp [Failed]

lemma failed_singleton {c d : HashComponent} {message : String} :
    Failed c [⟨d, message⟩] ↔ d = c := by
  simp [Failed]

lemma Failed.mem {c : HashComponent} {errors : List HashError} {order : List HashComponent}
    (h : Failed c errors) (horder : (errors.map HashError.component).Sublist order) :
    c ∈ order := by
  obtain ⟨e, he, rfl⟩ := h
  exact horder.subset (List.mem_map_of_mem he)

/-! ## Attempts -/

section Attempts
variable {ε α : Type} {component c : HashComponent} {message : ε → String} {r : Except ε α}

lemma attempt_failed :
    Failed c (attempt component message r).2 ↔ component = c ∧ ∃ e, r = .error e := by
  cases r <;> simp [attempt, Failed]

lemma attempt_eq_none : (attempt component message r).1 = none ↔ ∃ e, r = .error e := by
  cases r <;> simp [attempt]

lemma attempt_eq_some {a : α} : (attempt component message r).1 = some a ↔ r = .ok a := by
  cases r <;> simp [attempt]

lemma attempt_sublist :
    ((attempt component message r).2.map HashError.component).Sublist [component] := by
  cases r <;> simp [attempt]

end Attempts

section File
variable {data : Bytes} {config : Config} {collaborators : Collaborators} {c : HashComponent}

/-! ## The fuzzy digest -/

lemma fuzzyPart_failed :
    Failed c (FileFingerprint.fuzzyPart data config).2 ↔
      .ssdeep = c ∧ config.hashes.ssdeep ∧ ∃ e, FuzzyHash.ofBytes data = .error e := by
  unfold FileFingerprint.fuzzyPart
  by_cases h : config.hashes.ssdeep
  · simp [h, attempt_failed]
  · simp [h, not_failed_nil]

lemma fuzzyPart_eq_some {text : String} :
    (FileFingerprint.fuzzyPart data config).1 = some text ↔
      config.hashes.ssdeep ∧ ∃ digest, FuzzyHash.ofBytes data = .ok (some digest) ∧
        digest.text = text := by
  unfold FileFingerprint.fuzzyPart
  by_cases h : config.hashes.ssdeep
  · simp [h, attempt_eq_some, Option.join_eq_some_iff]
  · simp [h]

lemma fuzzyPart_sublist :
    ((FileFingerprint.fuzzyPart data config).2.map HashError.component).Sublist [.ssdeep] := by
  unfold FileFingerprint.fuzzyPart
  by_cases h : config.hashes.ssdeep
  · simpa [h] using attempt_sublist
  · simp [h]

lemma failed_behind_fuzzy {errors : List HashError} (hc : c ≠ .ssdeep) :
    Failed c ((FileFingerprint.fuzzyPart data config).2 ++ errors) ↔ Failed c errors := by
  have hother : ¬Failed c (FileFingerprint.fuzzyPart data config).2 :=
    fun h => hc (fuzzyPart_failed.mp h).1.symm
  rw [failed_append, or_iff_right hother]

/-! ## The structure -/

/-- What is found of the structure of a file stands in its fingerprint. -/
lemma fingerprint_of_structure {pe : Option PeFingerprint} {elf : Option ElfFingerprint}
    {macho : Option MachOFingerprint} {errors : List HashError}
    (h : FileFingerprint.structurePart data config collaborators = (pe, elf, macho, errors)) :
    let fp := FileFingerprint.ofBytes data config collaborators
    fp.pe = pe ∧ fp.elf = elf ∧ fp.macho = macho ∧
      fp.errors = (FileFingerprint.fuzzyPart data config).2 ++ errors := by
  simp [FileFingerprint.ofBytes, h]

end File

end Hallmark.Proofs
