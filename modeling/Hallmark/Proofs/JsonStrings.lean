import Hallmark.Json.Quoted
import Mathlib.Data.List.Basic
import Mathlib.Tactic.IntervalCases

/-!
# Strings in JSON texts

The rule by which a text is written between quotes. What is written by it is scanned up to the closing
quote, and means the text again.
-/

namespace Hallmark.Proofs
open Json.Quoted

/-- The characters that are escaped by a letter or by themselves. -/
def letterEscapes : List (Char × Char) :=
  [('"', '"'), ('\\', '\\'), ('\x08', 'b'), ('\x0c', 'f'), ('\n', 'n'), ('\r', 'r'), ('\t', 't')]

/-- How a character stands between quotes: escaped by a letter when there is one for it, as any other
control character by its number in hexadecimal digits, and else as it is. -/
inductive EscapedAs : Char → List Char → Prop
  | letter {c d : Char} : (c, d) ∈ letterEscapes → EscapedAs c ['\\', d]
  | control {c : Char} : (∀ d, (c, d) ∉ letterEscapes) → c.toNat < 32 →
      EscapedAs c ['\\', 'u', '0', '0', (c.toNat / 16).digitChar, (c.toNat % 16).digitChar]
  | plain {c : Char} : (∀ d, (c, d) ∉ letterEscapes) → 32 ≤ c.toNat → EscapedAs c [c]

/-- How a text stands between quotes. -/
inductive SpelledAs : List Char → List Char → Prop
  | nil : SpelledAs [] []
  | cons {c : Char} {piece cs raw : List Char} : EscapedAs c piece → SpelledAs cs raw →
      SpelledAs (c :: cs) (piece ++ raw)

/-- What can stand between quotes: it is scanned up to the closing quote, whatever follows. -/
def ProperString (raw : List Char) : Prop :=
  ∀ rest, scan? (raw ++ '"' :: rest) = some (raw, rest)

/-! ## Characters -/

section Characters
variable {c : Char} {piece : List Char}

/-- The two hexadecimal digits of a control character. -/
lemma unit?_control {n : Nat} (hn : n < 32) :
    unit? '0' '0' (n / 16).digitChar (n % 16).digitChar = some n := by
  interval_cases n <;> rfl

lemma escaped?_letter {d : Char} (h : (c, d) ∈ letterEscapes) : escaped? d = some c ∧ d ≠ 'u' := by
  simp only [letterEscapes, List.mem_cons, Prod.mk.injEq, List.not_mem_nil, or_false] at h
  rcases h with ⟨rfl, rfl⟩ | ⟨rfl, rfl⟩ | ⟨rfl, rfl⟩ | ⟨rfl, rfl⟩ | ⟨rfl, rfl⟩ | ⟨rfl, rfl⟩ |
    ⟨rfl, rfl⟩ <;> exact ⟨rfl, by decide⟩

/-- A character that stands as it is opens no escape and closes no string. -/
lemma plain_ne (h : ∀ d, (c, d) ∉ letterEscapes) : c ≠ '"' ∧ c ≠ '\\' := by
  constructor
  · rintro rfl
    exact h '"' (by decide)
  · rintro rfl
    exact h '\\' (by decide)

lemma scan?_escaped (h : EscapedAs c piece) (tail : List Char) : scan? (piece ++ tail) =
    (scan? tail).map fun scanned => (piece ++ scanned.1, scanned.2) := by
  cases h with
  | letter hletter =>
    obtain ⟨hmeant, hu⟩ := escaped?_letter hletter
    rw [List.cons_append, List.singleton_append, scan?]
    · simp [hmeant]
    · exact fun _ _ _ _ _ h => absurd h hu
  | control _ hcontrol => simp [scan?, unit?_control hcontrol]
  | plain hplain hspace =>
    obtain ⟨hquote, hbackslash⟩ := plain_ne hplain
    have hvisible : ¬c < ' ' := fun hless => absurd (Char.lt_def.mp hless) (Nat.not_lt.mpr hspace)
    rw [List.singleton_append, scan?]
    · simp [hbackslash, hvisible]
    · exact hquote
    · exact fun _ _ _ _ _ h => absurd h hbackslash
    · exact fun _ _ h => absurd h hbackslash

lemma decode?_escaped (h : EscapedAs c piece) (tail : List Char) :
    decode? (piece ++ tail) = (decode? tail).map (c :: ·) := by
  cases h with
  | letter hletter =>
    obtain ⟨hmeant, hu⟩ := escaped?_letter hletter
    rw [List.cons_append, List.singleton_append, decode?]
    · simp [hmeant]
    · exact fun _ _ _ _ _ h => absurd h hu
  | control _ hcontrol =>
    have hhigh : ¬0xdc00 ≤ c.toNat := by omega
    have hlow : ¬0xd800 ≤ c.toNat := by omega
    simp [decode?, unit?_control hcontrol, hhigh, hlow]
  | plain hplain _ =>
    obtain ⟨-, hbackslash⟩ := plain_ne hplain
    rw [List.singleton_append, decode?]
    · exact fun _ _ _ _ _ h => absurd h hbackslash
    · exact fun _ _ h => absurd h hbackslash

/-- The writer follows the rule. -/
lemma escapedAs_encodeChar (c : Char) : EscapedAs c (encodeChar c) := by
  unfold encodeChar
  split
  · exact .letter (by decide)
  · exact .letter (by decide)
  · exact .letter (by decide)
  · exact .letter (by decide)
  · exact .letter (by decide)
  · exact .letter (by decide)
  · exact .letter (by decide)
  · have hplain : ∀ d, (c, d) ∉ letterEscapes := by
      simp_all [letterEscapes]
    split_ifs with hcontrol
    · exact .control hplain (Char.lt_def.mp hcontrol)
    · exact .plain hplain (Nat.le_of_not_lt fun hless => hcontrol (Char.lt_def.mpr hless))

end Characters

/-! ## Texts -/

section Texts
variable {cs raw : List Char}

/-- A text between quotes is scanned up to the closing quote. -/
lemma SpelledAs.properString (h : SpelledAs cs raw) : ProperString raw := by
  intro rest
  induction h with
  | nil => rfl
  | cons hpiece _ ih =>
    rw [List.append_assoc, scan?_escaped hpiece, ih]
    rfl

/-- A text between quotes means the text. -/
lemma SpelledAs.decode? (h : SpelledAs cs raw) : decode? raw = some cs := by
  induction h with
  | nil => rfl
  | cons hpiece _ ih =>
    rw [decode?_escaped hpiece, ih]
    rfl

lemma spelledAs_encode (cs : List Char) : SpelledAs cs (encode cs) := by
  induction cs with
  | nil => exact .nil
  | cons c cs ih =>
    rw [encode, List.flatMap_cons]
    exact .cons (escapedAs_encodeChar c) ih

end Texts

end Hallmark.Proofs
