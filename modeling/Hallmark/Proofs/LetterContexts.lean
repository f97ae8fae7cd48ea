import Hallmark.Text.LetterCase
import Mathlib.Data.List.Induction
import Mathlib.Tactic.Lemma
import Mathlib.Tactic.SplitIfs

/-!
# Lower case in context

The lower-case form of a text depends on what stands around it in one place only: a capital sigma
that the text ends with, ignorable characters aside. Letters of ASCII take no part in this, and their
case is lost.
-/

namespace Hallmark.Proofs
open LetterCase

/-! ## Texts between others -/

/-- Tells whether the nearest character that counts behind a place has case. In front of it stands
the given text, and `after` tells it of what comes next. -/
def casedAhead (after : Bool) : List Char → Bool
  | [] => after
  | c :: rest => if isIgnorable c then casedAhead after rest else isCased c

/-- Tells the same of the nearest character that counts in front of the end of a text. -/
def casedBehind (before : Bool) (cs : List Char) : Bool :=
  cs.foldl (fun before c => if isIgnorable c then before else isCased c) before

/-- The lower-case form of a character with the text `rest` behind it. -/
def lowerAt (before after : Bool) (c : Char) (rest : List Char) : List Char :=
  if c = 'Σ' then [if before && !casedAhead after rest then 'ς' else 'σ'] else lowerChar c

/-- The lower-case form of a text between two others. -/
def lowerBetween (before after : Bool) : List Char → List Char
  | [] => []
  | c :: rest =>
    lowerAt before after c rest ++
      lowerBetween (if isIgnorable c then before else isCased c) after rest

section Between
variable {before after : Bool} {cs : List Char}

lemma startsCased_append (cs ds : List Char) :
    startsCased (cs ++ ds) = casedAhead (startsCased ds) cs := by
  induction cs with
  | nil => rfl
  | cons c cs ih => rw [List.cons_append, startsCased, casedAhead, ih]

lemma lowerFrom_append (before : Bool) (cs ds : List Char) :
    lowerFrom before (cs ++ ds) =
      lowerBetween before (startsCased ds) cs ++ lowerFrom (casedBehind before cs) ds := by
  induction cs generalizing before with
  | nil => rfl
  | cons c cs ih =>
    rw [List.cons_append, lowerFrom, ih, startsCased_append, lowerBetween, List.append_assoc]
    rfl

lemma lowerFrom_eq (before : Bool) (cs : List Char) :
    lowerFrom before cs = lowerBetween before false cs := by
  have happend := lowerFrom_append before cs []
  rwa [List.append_nil, lowerFrom, List.append_nil] at happend

/-! ## Final sigmas -/

/-- Behind `before`, the text ends with a capital sigma in its final form, ignorable characters
aside. -/
def EndsInSigma (before : Bool) (cs : List Char) : Prop :=
  ∃ front back, cs = front ++ 'Σ' :: back ∧ casedBehind before front = true ∧
    ∀ c ∈ back, isIgnorable c = true

lemma casedAhead_congr_iff :
    casedAhead true cs = casedAhead false cs ↔ ¬∀ c ∈ cs, isIgnorable c = true := by
  induction cs with
  | nil => simp [casedAhead]
  | cons c cs ih =>
    unfold casedAhead
    by_cases hc : isIgnorable c = true
    · rw [if_pos hc, if_pos hc, ih, List.forall_mem_cons, and_iff_right hc]
    · rw [if_neg hc, if_neg hc, List.forall_mem_cons]
      exact iff_of_true rfl fun h => hc h.1

lemma casedAhead_of_ignorable (h : ∀ c ∈ cs, isIgnorable c = true) : casedAhead after cs = after := by
  induction cs with
  | nil => rfl
  | cons c cs ih =>
    rw [casedAhead, if_pos (h c List.mem_cons_self)]
    exact ih fun d hd => h d (List.mem_cons_of_mem c hd)

lemma lowerAt_congr_iff {c : Char} :
    lowerAt before true c cs = lowerAt before false c cs ↔
      ¬(c = 'Σ' ∧ before = true ∧ ∀ d ∈ cs, isIgnorable d = true) := by
  unfold lowerAt
  by_cases hc : c = 'Σ'
  · rw [if_pos hc, if_pos hc, and_iff_right hc]
    cases before with
    | false => simp
    | true =>
      by_cases hall : ∀ d ∈ cs, isIgnorable d = true
      · rw [casedAhead_of_ignorable hall, casedAhead_of_ignorable hall]
        exact iff_of_false (by decide) (not_not_intro ⟨rfl, hall⟩)
      · rw [casedAhead_congr_iff.mpr hall]
        exact iff_of_true rfl fun h => hall h.2
  · rw [if_neg hc, if_neg hc]
    exact iff_of_true rfl fun h => hc h.1

lemma length_lowerAt {c : Char} :
    (lowerAt before true c cs).length = (lowerAt before false c cs).length := by
  unfold lowerAt
  split_ifs <;> rfl

lemma endsInSigma_cons_iff {c : Char} :
    EndsInSigma before (c :: cs) ↔
      (c = 'Σ' ∧ before = true ∧ ∀ d ∈ cs, isIgnorable d = true) ∨
        EndsInSigma (if isIgnorable c then before else isCased c) cs := by
  constructor
  · rintro ⟨front, back, hsplit, hfront, hback⟩
    cases front with
    | nil =>
      obtain ⟨rfl, rfl⟩ := List.cons.inj hsplit
      exact .inl ⟨rfl, hfront, hback⟩
    | cons d front =>
      obtain ⟨rfl, rfl⟩ := List.cons.inj hsplit
      exact .inr ⟨front, back, rfl, hfront, hback⟩
  · rintro (⟨rfl, hbefore, hall⟩ | ⟨front, back, rfl, hfront, hback⟩)
    · exact ⟨[], cs, rfl, hbefore, hall⟩
    · exact ⟨c :: front, back, rfl, hfront, hback⟩

/-- A cased letter behind a text makes a difference to its last sigma only. -/
lemma lowerBetween_congr_iff :
    lowerBetween before true cs = lowerBetween before false cs ↔ ¬EndsInSigma before cs := by
  induction cs generalizing before with
  | nil =>
    refine iff_of_true rfl ?_
    rintro ⟨front, back, hsplit, -⟩
    exact List.append_ne_nil_of_right_ne_nil front (List.cons_ne_nil 'Σ' back) hsplit.symm
  | cons c cs ih =>
    rw [endsInSigma_cons_iff, not_or, ← lowerAt_congr_iff, ← ih]
    -- Both forms of the first character have one length, so they cannot make up for the rest.
    constructor
    · intro h
      exact List.append_inj h length_lowerAt
    · rintro ⟨hhead, hrest⟩
      rw [lowerBetween, lowerBetween, hhead, hrest]

lemma casedBehind_concat {c : Char} :
    casedBehind before (cs ++ [c]) = if isIgnorable c then casedBehind before cs else isCased c :=
  List.foldl_append

/-- The nearest character that counts is found by passing over the ignorable ones. -/
lemma casedBehind_eq (before : Bool) (cs : List Char) :
    casedBehind before cs = ((cs.reverse.find? fun c => !isIgnorable c).map isCased).getD before := by
  induction cs using List.reverseRecOn with
  | nil => rfl
  | append_singleton cs c ih =>
    rw [casedBehind_concat, List.reverse_concat, List.find?_cons]
    cases isIgnorable c with
    | true => exact ih
    | false => rfl

end Between

/-! ## Letters of ASCII -/

lemma toLower_eq_or_upper (c : Char) : c.toLower = c ∨ ∃ n < 26, c = Char.ofNat (n + 65) := by
  by_cases hc : 'A'.val ≤ c.val ∧ c.val ≤ 'Z'.val
  · right
    have hlow : 65 ≤ c.toNat := UInt32.le_iff_toNat_le.mp hc.1
    have hhigh : c.toNat ≤ 90 := UInt32.le_iff_toNat_le.mp hc.2
    refine ⟨c.toNat - 65, by omega, ?_⟩
    rw [Nat.sub_add_cancel hlow, Char.ofNat_toNat]
  · left
    exact dif_neg hc

/-- The tables do not tell the case of a letter of ASCII. -/
lemma toLower_alike (c : Char) : lowerChar c.toLower = lowerChar c ∧
    isIgnorable c.toLower = isIgnorable c ∧ isCased c.toLower = isCased c ∧
    (c.toLower = 'Σ' ↔ c = 'Σ') := by
  have hupper : ∀ n < 26, lowerChar (Char.ofNat (n + 65)).toLower = lowerChar (Char.ofNat (n + 65)) ∧
      isIgnorable (Char.ofNat (n + 65)).toLower = isIgnorable (Char.ofNat (n + 65)) ∧
      isCased (Char.ofNat (n + 65)).toLower = isCased (Char.ofNat (n + 65)) ∧
      ((Char.ofNat (n + 65)).toLower = 'Σ' ↔ Char.ofNat (n + 65) = 'Σ') := by
    decide +kernel
  rcases toLower_eq_or_upper c with hsame | ⟨n, hn, rfl⟩
  · rw [hsame]
    exact ⟨rfl, rfl, rfl, Iff.rfl⟩
  · exact hupper n hn

lemma startsCased_toLower (cs : List Char) : startsCased (cs.map Char.toLower) = startsCased cs := by
  induction cs with
  | nil => rfl
  | cons c cs ih =>
    obtain ⟨-, hignorable, hcased, -⟩ := toLower_alike c
    rw [List.map_cons, startsCased, startsCased, hignorable, hcased, ih]

lemma lowerFrom_toLower (before : Bool) (cs : List Char) :
    lowerFrom before (cs.map Char.toLower) = lowerFrom before cs := by
  induction cs generalizing before with
  | nil => rfl
  | cons c cs ih =>
    obtain ⟨hlower, hignorable, hcased, hsigma⟩ := toLower_alike c
    simp only [List.map_cons, lowerFrom, hlower, hignorable, hcased, hsigma, startsCased_toLower, ih]

end Hallmark.Proofs
