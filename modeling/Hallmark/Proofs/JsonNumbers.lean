import Hallmark.Json.Number
import Mathlib.Data.List.Basic
import Mathlib.Tactic.IntervalCases

/-!
# Numbers in JSON texts

A number that is spelled as the format asks for is scanned back from its text, and natural numbers
are read back by their digits.
-/

namespace Hallmark.Proofs
open Json

def AllDigits (run : List Char) : Prop := ∀ c ∈ run, c.isDigit = true

/-- A number that the format can spell. -/
structure ProperNumber (n : Number) : Prop where
  whole : n.whole ≠ []
  digits : AllDigits n.whole
  leading : n.whole.head? = some '0' → n.whole = ['0']
  fraction : AllDigits n.fraction
  exponent : ∀ e ∈ n.exponent, e.2 ≠ [] ∧ AllDigits e.2

/-- What may follow a number: nothing that would be part of it. -/
def EndsNumber (rest : List Char) : Prop :=
  ∀ c ∈ rest.head?, c.isDigit = false ∧ c ≠ '.' ∧ c ≠ 'e' ∧ c ≠ 'E'

section Scan
variable {run rest : List Char} {n : Number}

lemma digits?_append (hne : run ≠ []) (hrun : AllDigits run)
    (hrest : ∀ c ∈ rest.head?, c.isDigit = false) :
    Number.digits? (run ++ rest) = some (run, rest) := by
  have htake : rest.takeWhile Char.isDigit = [] := by
    cases rest with
    | nil => rfl
    | cons c rest => rw [List.takeWhile_cons, hrest c rfl, if_neg Bool.false_ne_true]
  have hdrop : rest.dropWhile Char.isDigit = rest := by
    cases rest with
    | nil => rfl
    | cons c rest => rw [List.dropWhile_cons, hrest c rfl, if_neg Bool.false_ne_true]
  rw [Number.digits?, List.takeWhile_append_of_pos hrun, htake, List.append_nil, if_neg hne,
    List.dropWhile_append_of_pos hrun, hdrop]

/-- The exponent of a number in writing. -/
def exponentText : Option (Bool × List Char) → List Char
  | none => []
  | some (negative, run) => 'e' :: (if negative then '-' else '+') :: run

/-- The fraction of a number in writing. -/
def fractionText (fraction : List Char) : List Char :=
  if fraction = [] then [] else '.' :: fraction

lemma text_eq (n : Number) : n.text = (if n.negative then ['-'] else []) ++
    (n.whole ++ (fractionText n.fraction ++ exponentText n.exponent)) := by
  rw [Number.text, List.append_assoc, List.append_assoc]
  rfl

lemma exponent?_text {exponent : Option (Bool × List Char)}
    (hexponent : ∀ e ∈ exponent, e.2 ≠ [] ∧ AllDigits e.2) (hrest : EndsNumber rest) :
    Number.exponent? (exponentText exponent ++ rest) = some (exponent, rest) := by
  cases exponent with
  | none =>
    cases rest with
    | nil => rfl
    | cons c rest =>
      obtain ⟨-, -, hlower, hupper⟩ := hrest c rfl
      rw [exponentText, List.nil_append, Number.exponent?,
        if_neg (fun hc => hc.elim hlower hupper)]
  | some e =>
    obtain ⟨negative, run⟩ := e
    obtain ⟨hne, hrun⟩ := hexponent _ rfl
    have hdigits := digits?_append hne hrun fun c hc => (hrest c hc).1
    cases negative <;> simp [exponentText, Number.exponent?, Number.exponentSign, hdigits]

lemma fraction?_text {fraction : List Char} (hfraction : AllDigits fraction)
    (hrest : ∀ c ∈ rest.head?, c.isDigit = false ∧ c ≠ '.') :
    Number.fraction? (fractionText fraction ++ rest) = some (fraction, rest) := by
  rw [fractionText]
  split_ifs with hnone
  · subst hnone
    cases rest with
    | nil => rfl
    | cons c rest =>
      obtain ⟨-, hpoint⟩ := hrest c rfl
      rw [List.nil_append, Number.fraction?]
      intro _ h
      exact hpoint (List.cons.inj h).1
  · exact digits?_append hnone hfraction fun c hc => (hrest c hc).1

lemma sign_text (hwhole : ∀ c ∈ run.head?, c.isDigit = true) (hne : run ≠ []) (negative : Bool) :
    Number.sign ((if negative then ['-'] else []) ++ run) = (negative, run) := by
  cases negative with
  | true => rfl
  | false =>
    cases run with
    | nil => exact absurd rfl hne
    | cons c run =>
      have hdigit := hwhole c rfl
      rw [if_neg Bool.false_ne_true, List.nil_append, Number.sign]
      rintro _ h
      rw [(List.cons.inj h).1] at hdigit
      exact absurd hdigit (by decide)

lemma head_exponentText (exponent : Option (Bool × List Char)) (hrest : EndsNumber rest) :
    ∀ c ∈ (exponentText exponent ++ rest).head?, c.isDigit = false ∧ c ≠ '.' := by
  intro c hc
  cases exponent with
  | none => exact ⟨(hrest c hc).1, (hrest c hc).2.1⟩
  | some e =>
    cases hc
    exact ⟨by decide, by decide⟩

lemma head_fractionText (fraction : List Char)
    (hrest : ∀ c ∈ rest.head?, c.isDigit = false) :
    ∀ c ∈ (fractionText fraction ++ rest).head?, c.isDigit = false := by
  intro c hc
  rw [fractionText] at hc
  split_ifs at hc with hnone
  · exact hrest c hc
  · cases hc
    decide

lemma head_append_digits (hrun : AllDigits run) (hne : run ≠ []) :
    ∀ c ∈ (run ++ rest).head?, c.isDigit = true := by
  intro c hc
  cases run with
  | nil => exact absurd rfl hne
  | cons d run =>
    cases hc
    exact hrun c List.mem_cons_self

/-- A number is scanned back from its text when nothing follows that would be part of it. -/
lemma scan?_text (h : ProperNumber n) (hrest : EndsNumber rest) :
    Number.scan? (n.text ++ rest) = some (n, rest) := by
  have hexponent := exponent?_text h.exponent hrest
  have hfollows := head_exponentText n.exponent hrest
  have hfraction := fraction?_text h.fraction hfollows
  have hwhole := digits?_append h.whole h.digits
    (head_fractionText n.fraction fun c hc => (hfollows c hc).1)
  have hsign := sign_text (head_append_digits h.digits h.whole)
    (List.append_ne_nil_of_left_ne_nil h.whole
      (fractionText n.fraction ++ (exponentText n.exponent ++ rest))) n.negative
  have hzero : ¬(n.whole.head? = some '0' ∧ n.whole ≠ ['0']) := fun hz => hz.2 (h.leading hz.1)
  rw [text_eq, List.append_assoc, List.append_assoc, List.append_assoc, Number.scan?, hsign]
  simp only [hwhole, hfraction, hexponent, Option.bind_eq_bind, Option.bind_some, if_neg hzero]

end Scan

/-! ## Natural numbers -/

lemma digitsValue_toDigits (n : Nat) : Number.digitsValue (Nat.toDigits 10 n) = n :=
  Nat.ofDigitChars_toDigits (by decide) (by decide)

lemma allDigits_toDigits (n : Nat) : AllDigits (Nat.toDigits 10 n) :=
  fun _ hc => Nat.isDigit_of_mem_toDigits (by decide) (by decide) hc

lemma head_toDigits {n : Nat} (h : (Nat.toDigits 10 n).head? = some '0') : n = 0 := by
  induction n using Nat.strong_induction_on with
  | _ n ih =>
    by_cases hsmall : n < 10
    · rw [Nat.toDigits_of_lt_base hsmall] at h
      interval_cases n <;> first | rfl | cases h
    · rw [Nat.toDigits_of_base_le (by decide) (Nat.le_of_not_lt hsmall),
        List.head?_append_of_ne_nil _ Nat.toDigits_ne_nil] at h
      have hzero := ih (n / 10) (by omega) h
      omega

lemma properNumber_ofNat (n : Nat) : ProperNumber (.ofNat n) where
  whole := Nat.toDigits_ne_nil
  digits := allDigits_toDigits n
  leading h := by
    rw [Number.ofNat, head_toDigits h]
    rfl
  fraction _ hc := absurd hc List.not_mem_nil
  exponent _ he := by cases he

lemma natural?_ofNat (n : Nat) : (Number.ofNat n).natural? = some n := by
  rw [Number.natural?, Number.ofNat, digitsValue_toDigits]
  rfl

end Hallmark.Proofs
