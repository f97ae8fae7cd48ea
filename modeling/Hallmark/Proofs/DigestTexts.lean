import Hallmark.FuzzyHash.Digest
import Hallmark.Proofs.JsonNumbers

/-!
# Texts of digests

A digest is read back from its text. The reader of block sizes passes over a plus sign and over zeros
in front, so a digest has other texts too, and its own one is told from them by its first character.
-/

namespace Hallmark.Proofs
open FuzzyHash

/-! ## Numbers in decimal digits -/

section Numerals
variable {run : List Char} {n : Nat} {c : Char}

lemma digitValue_lt (h : c.isDigit = true) : c.toNat - '0'.toNat < 10 := by
  obtain ⟨hlow, hhigh⟩ := Char.isDigit_iff_toNat.mp h
  have hnine : '9'.toNat = '0'.toNat + 9 := rfl
  omega

lemma digitChar_digitValue (h : c.isDigit = true) : Nat.digitChar (c.toNat - '0'.toNat) = c := by
  obtain ⟨hlow, -⟩ := Char.isDigit_iff_toNat.mp h
  apply Char.toNat_inj.mp
  rw [Nat.toNat_digitChar_of_lt_ten (digitValue_lt h)]
  exact Nat.add_sub_cancel' hlow

/-- Digits behind a number that is not zero make up the digits of a greater one. -/
lemma toDigits_append_digits (hn : 0 < n) (hrun : AllDigits run) :
    Nat.toDigits 10 n ++ run = Nat.toDigits 10 (Nat.ofDigitChars 10 run n) := by
  induction run generalizing n with
  | nil => rw [List.append_nil, Nat.ofDigitChars_nil]
  | cons c run ih =>
    have hc : c.isDigit = true := hrun c List.mem_cons_self
    have hrest : AllDigits run := fun d hd => hrun d (List.mem_cons_of_mem c hd)
    have hone : Nat.toDigits 10 (c.toNat - '0'.toNat) = [c] := by
      rw [Nat.toDigits_of_lt_base (digitValue_lt hc), digitChar_digitValue hc]
    have hstep : Nat.toDigits 10 n ++ [c] = Nat.toDigits 10 (10 * n + (c.toNat - '0'.toNat)) := by
      rw [← hone]
      exact Nat.toDigits_append_toDigits (by decide) hn (digitValue_lt hc)
    rw [Nat.ofDigitChars_cons, ← ih (by omega) hrest, ← hstep, List.append_assoc,
      List.singleton_append]

/-- A run of digits is that of its value behind some zeros. -/
lemma exists_leading_zeros (hne : run ≠ []) (hrun : AllDigits run) :
    ∃ zeros, run = List.replicate zeros '0' ++ Nat.toDigits 10 (Nat.ofDigitChars 10 run 0) := by
  induction run with
  | nil => exact absurd rfl hne
  | cons c run ih =>
    have hc : c.isDigit = true := hrun c List.mem_cons_self
    have hrest : AllDigits run := fun d hd => hrun d (List.mem_cons_of_mem c hd)
    rw [Nat.ofDigitChars_cons, Nat.mul_zero, Nat.zero_add]
    by_cases hzero : c = '0'
    · subst hzero
      rw [Nat.sub_self]
      by_cases hlast : run = []
      · subst hlast
        exact ⟨0, rfl⟩
      · obtain ⟨zeros, hzeros⟩ := ih hlast hrest
        exact ⟨zeros + 1, by rw [List.replicate_succ, List.cons_append, ← hzeros]⟩
    -- The first digit that is not a zero begins the number.
    · have hpos : 0 < c.toNat - '0'.toNat := by
        obtain ⟨hlow, -⟩ := Char.isDigit_iff_toNat.mp hc
        have hne : c.toNat ≠ '0'.toNat := fun h => hzero (Char.toNat_inj.mp h)
        omega
      refine ⟨0, ?_⟩
      rw [← toDigits_append_digits hpos hrest, Nat.toDigits_of_lt_base (digitValue_lt hc),
        digitChar_digitValue hc]
      rfl

lemma allDigits_padded (zeros n : Nat) :
    AllDigits (List.replicate zeros '0' ++ Nat.toDigits 10 n) := by
  intro c hc
  rcases List.mem_append.mp hc with hzero | hdigit
  · rw [List.eq_of_mem_replicate hzero]
    rfl
  · exact allDigits_toDigits n c hdigit

lemma decimal?_eq_some : Digest.decimal? run = some n ↔
    ∃ zeros, run = List.replicate zeros '0' ++ Nat.toDigits 10 n := by
  have hvalue : run.foldl (fun n c => 10 * n + (c.toNat - '0'.toNat)) 0 =
      Nat.ofDigitChars 10 run 0 := rfl
  constructor
  · intro h
    unfold Digest.decimal? at h
    split_ifs at h with hdigits
    obtain rfl := Option.some.inj h
    exact exists_leading_zeros hdigits.1 (List.all_eq_true.mp hdigits.2)
  · rintro ⟨zeros, rfl⟩
    have hne : List.replicate zeros '0' ++ Nat.toDigits 10 n ≠ [] :=
      List.append_ne_nil_of_right_ne_nil _ Nat.toDigits_ne_nil
    unfold Digest.decimal?
    rw [if_pos ⟨hne, List.all_eq_true.mpr (allDigits_padded zeros n)⟩]
    rw [hvalue, Nat.ofDigitChars_append, Nat.ofDigitChars_replicate_zero, Nat.mul_zero,
      Nat.ofDigitChars_ten_toDigits]

end Numerals

/-! ## Fields -/

/-- What may stand in front of the digits of a block size without changing it. -/
def sizeFront (plus : Bool) (zeros : Nat) : List Char :=
  (if plus then ['+'] else []) ++ List.replicate zeros '0'

/-- At most `most` letters, digits, plus signs and slashes. -/
def LettersUpTo (most : Nat) (cs : List Char) : Prop :=
  cs.length ≤ most ∧ ∀ c ∈ cs, c.isAlphanum = true ∨ c = '+' ∨ c = '/'

/-- A digest with a block size of the search and piece strings of base64 letters. -/
structure WellFormed (d : Digest) : Prop where
  size : ∃ k, d.blockSize.toNat = 3 * 2 ^ k
  first : LettersUpTo 64 d.hash1.toList
  second : LettersUpTo 32 d.hash2.toList

/-- Digits, and two runs of base64 letters behind colons. -/
def MatchesFormat (s : String) : Prop :=
  ∃ size hash1 hash2, s.toList = size ++ ':' :: (hash1 ++ ':' :: hash2) ∧
    size ≠ [] ∧ AllDigits size ∧ LettersUpTo 64 hash1 ∧ LettersUpTo 32 hash2

/-- The text begins neither with a plus sign nor with a zero. -/
def Unpadded (s : String) : Prop := s.toList.head? ≠ some '+' ∧ s.toList.head? ≠ some '0'

section Fields
variable {cs front rest : List Char} {size : UInt64} {most : Nat} {c : Char}

lemma toNat_lt_of_isAlphanum (h : c.isAlphanum = true) : c.toNat < 128 := by
  have hlast : c.val ≤ 'z'.val := by
    rcases (Bool.or_eq_true _ _).mp h with halpha | hdigit
    · rcases (Bool.or_eq_true _ _).mp halpha with hupper | hlower
      · exact UInt32.le_trans (of_decide_eq_true hupper).2 (by decide)
      · exact of_decide_eq_true ((Bool.and_eq_true _ _).mp hlower).2
    · exact UInt32.le_trans (of_decide_eq_true ((Bool.and_eq_true _ _).mp hdigit).2) (by decide)
  exact Nat.lt_of_le_of_lt (UInt32.le_iff_toNat_le.mp hlast) (by decide)

lemma mem_alphabet_iff : c ∈ alphabet ↔ c.isAlphanum = true ∨ c = '+' ∨ c = '/' := by
  have hletters : (alphabet.all fun d => d.isAlphanum = true ∨ d = '+' ∨ d = '/') = true := by
    decide
  have hascii : ∀ n < 128, (Char.ofNat n).isAlphanum = true ∨ Char.ofNat n = '+' ∨
      Char.ofNat n = '/' → Char.ofNat n ∈ alphabet := by decide +kernel
  constructor
  · intro h
    exact of_decide_eq_true (List.all_eq_true.mp hletters c h)
  · intro h
    have hsmall : c.toNat < 128 := by
      rcases h with halnum | rfl | rfl
      · exact toNat_lt_of_isAlphanum halnum
      · decide
      · decide
    have hchar := hascii c.toNat hsmall
    rw [Char.ofNat_toNat] at hchar
    exact hchar h

lemma isPieceString_iff : Digest.isPieceString cs most = true ↔ LettersUpTo most cs := by
  unfold Digest.isPieceString LettersUpTo
  simp only [Bool.and_eq_true, decide_eq_true_eq, List.all_eq_true, List.contains_iff_mem,
    mem_alphabet_iff]

lemma LettersUpTo.no_colon (h : LettersUpTo most cs) : ':' ∉ cs := by
  intro hmem
  exact absurd (h.2 ':' hmem) (by decide)

lemma cut_eq_some :
    Digest.cut cs = some (front, rest) ↔ cs = front ++ ':' :: rest ∧ ':' ∉ front := by
  induction cs generalizing front with
  | nil => simp [Digest.cut]
  | cons c cs ih =>
    unfold Digest.cut
    by_cases hc : c = ':'
    · rw [if_pos hc, hc, Option.some.injEq, Prod.mk.injEq]
      constructor
      · rintro ⟨rfl, rfl⟩
        exact ⟨rfl, List.not_mem_nil⟩
      · rintro ⟨hsplit, hfree⟩
        cases front with
        | nil => exact ⟨rfl, (List.cons.inj hsplit).2⟩
        | cons d front =>
          obtain ⟨rfl, -⟩ := List.cons.inj hsplit
          exact absurd List.mem_cons_self hfree
    · rw [if_neg hc, Option.map_eq_some_iff]
      constructor
      · rintro ⟨⟨before, after⟩, hcut, heq⟩
        obtain ⟨rfl, rfl⟩ := Prod.mk.inj heq
        obtain ⟨rfl, hfree⟩ := ih.mp hcut
        exact ⟨rfl, List.not_mem_cons_of_ne_of_not_mem (Ne.symm hc) hfree⟩
      · rintro ⟨hsplit, hfree⟩
        cases front with
        | nil => exact absurd (List.cons.inj hsplit).1 hc
        | cons d front =>
          obtain ⟨rfl, hcs⟩ := List.cons.inj hsplit
          exact ⟨_, ih.mpr ⟨hcs, List.not_mem_of_not_mem_cons hfree⟩, rfl⟩

lemma isBlockSize_iff : Digest.isBlockSize size = true ↔ ∃ k, size.toNat = 3 * 2 ^ k := by
  unfold Digest.isBlockSize
  simp only [Bool.and_eq_true, decide_eq_true_eq, Nat.shiftLeft_eq, Nat.one_mul]
  constructor
  · rintro ⟨hthree, hpower⟩
    refine ⟨(size.toNat / 3).log2, ?_⟩
    rw [← hpower]
    omega
  · rintro ⟨k, hk⟩
    have hthird : size.toNat / 3 = 2 ^ k := by omega
    rw [hthird, Nat.log2_two_pow]
    exact ⟨by omega, rfl⟩

/-- The size that is written in a run of digits. -/
lemma sized_eq_some : ((Digest.decimal? cs).bind fun n =>
    if n < UInt64.size then some (UInt64.ofNat n) else none) = some size ↔
      ∃ zeros, cs = List.replicate zeros '0' ++ Nat.toDigits 10 size.toNat := by
  rw [Option.bind_eq_some_iff]
  constructor
  · rintro ⟨n, hn, hsize⟩
    split_ifs at hsize with hfits
    obtain rfl := Option.some.inj hsize
    rw [UInt64.toNat_ofNat_of_lt' hfits]
    exact decimal?_eq_some.mp hn
  · intro h
    refine ⟨size.toNat, decimal?_eq_some.mpr h, ?_⟩
    rw [if_pos size.toNat_lt, UInt64.ofNat_toNat]

lemma blockSize?_eq_some : Digest.blockSize? cs = some size ↔
    ∃ plus zeros, cs = sizeFront plus zeros ++ Nat.toDigits 10 size.toNat := by
  unfold Digest.blockSize?
  split
  · next digits =>
    refine sized_eq_some.trans ?_
    constructor
    · rintro ⟨zeros, rfl⟩
      exact ⟨true, zeros, rfl⟩
    · rintro ⟨plus, zeros, hcs⟩
      cases plus with
      | true => exact ⟨zeros, (List.cons.inj hcs).2⟩
      | false =>
        have hdigit := allDigits_padded zeros size.toNat '+' (hcs ▸ List.mem_cons_self)
        exact absurd hdigit (by decide)
  · next hplain =>
    refine sized_eq_some.trans ?_
    constructor
    · rintro ⟨zeros, rfl⟩
      exact ⟨false, zeros, rfl⟩
    · rintro ⟨plus, zeros, hcs⟩
      cases plus with
      | true => exact absurd hcs (hplain _)
      | false => exact ⟨zeros, hcs⟩

end Fields

/-! ## Texts -/

section Texts
variable {s : String} {d : Digest} {plus : Bool} {zeros : Nat}

lemma toList_text (d : Digest) : d.text.toList =
    Nat.toDigits 10 d.blockSize.toNat ++ ':' :: (d.hash1.toList ++ ':' :: d.hash2.toList) := by
  have hsize : (toString d.blockSize.toNat).toList = Nat.toDigits 10 d.blockSize.toNat :=
    String.toList_ofList
  have hcolon : ":".toList = [':'] := rfl
  simp only [Digest.text, String.toList_append, hsize, hcolon, List.append_assoc,
    List.nil_append, List.cons_append]

lemma no_colon_in_size (plus : Bool) (zeros n : Nat) :
    ':' ∉ sizeFront plus zeros ++ Nat.toDigits 10 n := by
  unfold sizeFront
  rw [List.append_assoc]
  intro hmem
  rcases List.mem_append.mp hmem with hplus | hdigit
  · cases plus with
    | true => exact absurd (List.mem_singleton.mp hplus) (by decide)
    | false => exact absurd hplus List.not_mem_nil
  · exact absurd (allDigits_padded zeros n ':' hdigit) (by decide)

/-- The texts of a digest are its own text and those with a plus sign or with zeros in front. -/
lemma parse?_eq_some : Digest.parse? s = some d ↔
    WellFormed d ∧ ∃ plus zeros, s.toList = sizeFront plus zeros ++ d.text.toList := by
  unfold Digest.parse?
  constructor
  · intro h
    obtain ⟨⟨size, rest⟩, hcut, h⟩ := Option.bind_eq_some_iff.mp h
    obtain ⟨blockSize, hsize, h⟩ := Option.bind_eq_some_iff.mp h
    obtain ⟨⟨hash1, hash2⟩, hrest, h⟩ := Option.bind_eq_some_iff.mp h
    dsimp only at hsize hrest h
    split_ifs at h with hvalid
    obtain rfl := Option.some.inj h
    simp only [Bool.and_eq_true] at hvalid
    obtain ⟨⟨hpower, hfirst⟩, hsecond⟩ := hvalid
    obtain ⟨hs, -⟩ := cut_eq_some.mp hcut
    obtain ⟨rfl, -⟩ := cut_eq_some.mp hrest
    obtain ⟨plus, zeros, rfl⟩ := blockSize?_eq_some.mp hsize
    refine ⟨⟨isBlockSize_iff.mp hpower, ?_, ?_⟩, plus, zeros, ?_⟩
    · rw [String.toList_ofList]
      exact isPieceString_iff.mp hfirst
    · rw [String.toList_ofList]
      exact isPieceString_iff.mp hsecond
    · rw [hs, toList_text, String.toList_ofList, String.toList_ofList, List.append_assoc]
  · rintro ⟨hform, plus, zeros, hs⟩
    have hcut : Digest.cut s.toList = some (sizeFront plus zeros ++
        Nat.toDigits 10 d.blockSize.toNat, d.hash1.toList ++ ':' :: d.hash2.toList) := by
      rw [cut_eq_some, hs, toList_text, List.append_assoc]
      exact ⟨rfl, no_colon_in_size plus zeros _⟩
    have hsize : Digest.blockSize? (sizeFront plus zeros ++ Nat.toDigits 10 d.blockSize.toNat) =
        some d.blockSize :=
      blockSize?_eq_some.mpr ⟨plus, zeros, rfl⟩
    have hrest : Digest.cut (d.hash1.toList ++ ':' :: d.hash2.toList) =
        some (d.hash1.toList, d.hash2.toList) :=
      cut_eq_some.mpr ⟨rfl, hform.first.no_colon⟩
    have hvalid : (Digest.isBlockSize d.blockSize &&
        Digest.isPieceString d.hash1.toList maxPieces &&
        Digest.isPieceString d.hash2.toList (maxPieces / 2)) = true := by
      simp only [Bool.and_eq_true]
      exact ⟨⟨isBlockSize_iff.mpr hform.size, isPieceString_iff.mpr hform.first⟩,
        isPieceString_iff.mpr hform.second⟩
    simp only [hcut, hsize, hrest, hvalid, Option.bind_eq_bind, Option.bind_some, if_true,
      String.ofList_toList]

/-- A digest is read back from its own text. -/
lemma parse?_text (h : WellFormed d) : Digest.parse? d.text = some d :=
  parse?_eq_some.mpr ⟨h, false, 0, rfl⟩

lemma digits_of_size (h : WellFormed d) :
    ∃ c rest, d.text.toList = c :: rest ∧ c.isDigit = true ∧ c ≠ '0' := by
  obtain ⟨k, hk⟩ := h.size
  have hpos : d.blockSize.toNat ≠ 0 := by
    have hpower : 0 < 2 ^ k := Nat.two_pow_pos k
    omega
  have hhead : (Nat.toDigits 10 d.blockSize.toNat).head? ≠ some '0' :=
    fun hzero => hpos (head_toDigits hzero)
  have hdigits := allDigits_toDigits d.blockSize.toNat
  rw [toList_text]
  cases hrun : Nat.toDigits 10 d.blockSize.toNat with
  | nil => exact absurd hrun Nat.toDigits_ne_nil
  | cons c run =>
    rw [hrun] at hhead hdigits
    exact ⟨c, _, rfl, hdigits c List.mem_cons_self, fun hzero => hhead (congrArg some hzero)⟩

/-- The first character of a text tells what stands in front of the block size. -/
lemma head_text (h : WellFormed d) (hs : s.toList = sizeFront plus zeros ++ d.text.toList) :
    (s.toList.head? = some '+' ↔ plus = true) ∧ (Unpadded s ↔ plus = false ∧ zeros = 0) := by
  obtain ⟨c, rest, htext, hdigit, hzero⟩ := digits_of_size h
  have hplus : c ≠ '+' := by
    rintro rfl
    cases hdigit
  unfold Unpadded
  rw [hs, htext]
  cases plus with
  | true => simp [sizeFront]
  | false =>
    cases zeros with
    | zero => simp [sizeFront, hplus, hzero]
    | succ zeros => simp [sizeFront, List.replicate_succ]

lemma matchesFormat_iff (h : WellFormed d)
    (hs : s.toList = sizeFront plus zeros ++ d.text.toList) :
    MatchesFormat s ↔ plus = false := by
  constructor
  · rintro ⟨size, hash1, hash2, hsplit, hne, hdigits, -⟩
    by_contra hplus
    rw [Bool.not_eq_false] at hplus
    have hhead := (head_text h hs).1.mpr hplus
    cases size with
    | nil => exact hne rfl
    | cons c size =>
      rw [hsplit] at hhead
      obtain rfl : c = '+' := Option.some.inj hhead
      exact absurd (hdigits _ List.mem_cons_self) (by decide)
  · rintro rfl
    refine ⟨_, d.hash1.toList, d.hash2.toList, ?_, ?_, allDigits_padded zeros d.blockSize.toNat,
      h.first, h.second⟩
    · rw [hs, toList_text, List.append_assoc]
      rfl
    · exact List.append_ne_nil_of_right_ne_nil _ Nat.toDigits_ne_nil

lemma text_eq_iff (h : WellFormed d) (hs : s.toList = sizeFront plus zeros ++ d.text.toList) :
    d.text = s ↔ Unpadded s := by
  constructor
  · rintro rfl
    have hown : d.text.toList = sizeFront false 0 ++ d.text.toList := rfl
    exact (head_text h hown).2.mpr ⟨rfl, rfl⟩
  · intro hplain
    obtain ⟨rfl, rfl⟩ := (head_text h hs).2.mp hplain
    exact (String.toList_inj.mp hs).symm

end Texts

/-- A well-formed digest is read back from its text, and a text that is read as a digest denotes a
well-formed one. The text has the format of digests if it does not begin with a plus sign, and it is
the digest's own text if it does not begin with a zero either, so that no two such texts denote the
same digest. -/
theorem digest_texts_read_back (d : Digest) (s : String) :
    (WellFormed d → Digest.parse? d.text = some d) ∧
    (Digest.parse? s = some d → WellFormed d ∧
      (MatchesFormat s ↔ s.toList.head? ≠ some '+') ∧ (d.text = s ↔ Unpadded s)) ∧
    ∀ s', Digest.parse? s = some d → Digest.parse? s' = some d → Unpadded s → Unpadded s' →
      s = s' := by
  have hread (t : String) (h : Digest.parse? t = some d) : WellFormed d ∧
      (MatchesFormat t ↔ t.toList.head? ≠ some '+') ∧ (d.text = t ↔ Unpadded t) := by
    obtain ⟨hform, plus, zeros, ht⟩ := parse?_eq_some.mp h
    refine ⟨hform, ?_, text_eq_iff hform ht⟩
    rw [matchesFormat_iff hform ht, Ne, (head_text hform ht).1, Bool.not_eq_true]
  refine ⟨parse?_text, hread s, ?_⟩
  intro s' h h' hplain hplain'
  rw [← (hread s h).2.2.mpr hplain, ← (hread s' h').2.2.mpr hplain']

/-- A digest with its own text, one with a zero in front and one with a plus sign in front. -/
theorem digest_texts_read_back_sample :
    let d : Digest := ⟨96, "abc+/", "XY"⟩
    (WellFormed d ∧ Digest.parse? d.text = some d) ∧
    (Digest.parse? "96:abc+/:XY" = some d ∧ MatchesFormat "96:abc+/:XY" ∧ d.text = "96:abc+/:XY") ∧
    (Digest.parse? "096:abc+/:XY" = some d ∧ MatchesFormat "096:abc+/:XY" ∧
      d.text ≠ "096:abc+/:XY") ∧
    (Digest.parse? "+96:abc+/:XY" = some d ∧ ¬MatchesFormat "+96:abc+/:XY") ∧
    ∀ s, Digest.parse? s = some d → Unpadded s → s = "96:abc+/:XY" := by
  intro d
  have hown : Digest.parse? "96:abc+/:XY" = some d := by decide
  have hzero : Digest.parse? "096:abc+/:XY" = some d := by decide
  have hplus : Digest.parse? "+96:abc+/:XY" = some d := by decide
  have hplain : Unpadded "96:abc+/:XY" := by
    unfold Unpadded
    decide
  obtain ⟨hback, hread, -⟩ := digest_texts_read_back d "96:abc+/:XY"
  obtain ⟨-, hreadZero, -⟩ := digest_texts_read_back d "096:abc+/:XY"
  obtain ⟨-, hreadPlus, -⟩ := digest_texts_read_back d "+96:abc+/:XY"
  obtain ⟨hform, hformat, htext⟩ := hread hown
  refine ⟨⟨hform, hback hform⟩, ⟨hown, hformat.mpr hplain.1, htext.mpr hplain⟩,
    ⟨hzero, (hreadZero hzero).2.1.mpr (by decide), ?_⟩, ⟨hplus, ?_⟩, ?_⟩
  · intro h
    exact ((hreadZero hzero).2.2.mp h).2 rfl
  · intro h
    exact (hreadPlus hplus).2.1.mp h rfl
  · intro s hs hunpadded
    exact (digest_texts_read_back d s).2.2 _ hs hown hunpadded hplain

/-- A block size is read with a plus sign or a zero in front, which is not the digest's own text;
the plus sign is outside the format. -/
theorem padded_sizes_accepted :
    (Digest.parse? "+3::" = some ⟨3, "", ""⟩ ∧ ¬MatchesFormat "+3::") ∧
    (Digest.parse? "03::" = some ⟨3, "", ""⟩ ∧ Digest.text ⟨3, "", ""⟩ ≠ "03::") ∧
    Digest.parse? "3::" = some ⟨3, "", ""⟩ := by
  have hplus : Digest.parse? "+3::" = some ⟨3, "", ""⟩ := by decide
  obtain ⟨hform, -⟩ := parse?_eq_some.mp hplus
  have hs : "+3::".toList = sizeFront true 0 ++ (Digest.text ⟨3, "", ""⟩).toList := by decide
  have hsigned : ¬MatchesFormat "+3::" := by
    rw [matchesFormat_iff hform hs]
    exact Bool.noConfusion
  exact ⟨⟨hplus, hsigned⟩, ⟨by decide, by decide⟩, by decide⟩

end Hallmark.Proofs
