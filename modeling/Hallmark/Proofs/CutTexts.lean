import Hallmark.MediaType
import Hallmark.Proofs.Utf16Texts
import Hallmark.Proofs.Utf8Texts
import Mathlib.Data.List.Induction

/-!
# Texts that are cut

The decoder reports nothing malformed exactly in the beginnings of texts. Whatever it is partway
through can be completed to a character, since the ranges that it holds the next octet to are those
that some character spells.
-/

namespace Hallmark.Proofs
open Utf8

/-! ## Characters partway -/

/-- The octets that continue a character with its lowest bits, six each. -/
def continuation : Nat → Nat → List UInt8
  | 0, _ => []
  | n + 1, code => UInt8.ofNat (code / 64 ^ n % 64 + 0x80) :: continuation n code

lemma encodeChar_ofNat {n : Nat} (h : n.isValidChar) :
    String.utf8EncodeChar (Char.ofNat n) =
      if n ≤ 0x7f then [UInt8.ofNat n]
      else if n ≤ 0x7ff then UInt8.ofNat (n / 64 % 0x20 + 0xc0) :: continuation 1 n
      else if n ≤ 0xffff then UInt8.ofNat (n / 4096 % 0x10 + 0xe0) :: continuation 2 n
      else UInt8.ofNat (n / 262144 % 0x08 + 0xf0) :: continuation 3 n := by
  have hval : (Char.ofNat n).val.toNat = n := toNat_charOfNat h
  rw [String.utf8EncodeChar]
  simp only [hval, continuation, Nat.pow_zero, Nat.div_one, Nat.reducePow]

/-- The first octet of a character has as many ones in front as the character has octets. -/
def leadMark (more : Nat) : Nat := 0x100 - 0x40 / 2 ^ more

/-- The code points of the characters that are spelled with `more` octets behind the second one. -/
def LongCode : (more n : Nat) → Prop
  | 0, n => 0x80 ≤ n ∧ n ≤ 0x7ff
  | 1, n => 0x800 ≤ n ∧ n ≤ 0xffff ∧ n.isValidChar
  | 2, n => 0x10000 ≤ n ∧ n ≤ 0x10ffff
  | _, _ => False

lemma encodeChar_long {more n : Nat} (h : LongCode more n) :
    String.utf8EncodeChar (Char.ofNat n) =
      UInt8.ofNat (n / 64 ^ (more + 1) + leadMark more) :: continuation (more + 1) n := by
  match more, h with
  | 0, ⟨hleast, hgreatest⟩ =>
    rw [encodeChar_ofNat (.inl (by omega)), if_neg (by omega), if_pos hgreatest,
      Nat.mod_eq_of_lt (by omega)]
    rfl
  | 1, ⟨hleast, hgreatest, hvalid⟩ =>
    rw [encodeChar_ofNat hvalid, if_neg (by omega), if_neg (by omega), if_pos hgreatest,
      Nat.mod_eq_of_lt (by omega)]
    rfl
  | 2, ⟨hleast, hgreatest⟩ =>
    rw [encodeChar_ofNat (.inr ⟨by omega, by omega⟩), if_neg (by omega), if_neg (by omega),
      if_neg (by omega), Nat.mod_eq_of_lt (by omega)]
    rfl

/-- Octets that begin a character: all code points with the bits that have been read, and with the
next bits in the range, spell the octets and go on with what is still to come. -/
structure Reading (front : List UInt8) (t : Tail) : Prop where
  range : 0x80 ≤ t.low.toNat ∧ t.low.toNat ≤ t.high.toNat ∧ t.high.toNat ≤ 0xbf
  spelled : ∀ n, n / 64 ^ (t.more + 1) = t.code → t.low.toNat ≤ n / 64 ^ t.more % 64 + 0x80 →
    n / 64 ^ t.more % 64 + 0x80 ≤ t.high.toNat →
      String.utf8EncodeChar (Char.ofNat n) = front ++ continuation (t.more + 1) n

section Characters
variable {b : UInt8} {c : Char} {t u : Tail} {front : List UInt8}

/-- The range of the second octet keeps away from code points that have a shorter spelling, and from
those of no character. -/
lemma reading_lead {low high : UInt8} {more code : Nat} (hb : b.toNat = code + leadMark more)
    (hrange : 0x80 ≤ low.toNat ∧ low.toNat ≤ high.toNat ∧ high.toNat ≤ 0xbf)
    (hlong : ∀ n, n / 64 ^ (more + 1) = code → low.toNat ≤ n / 64 ^ more % 64 + 0x80 →
      n / 64 ^ more % 64 + 0x80 ≤ high.toNat → LongCode more n) :
    Reading [b] ⟨low, high, more, code⟩ := by
  refine ⟨hrange, fun n hread hlow hhigh => ?_⟩
  rw [encodeChar_long (hlong n hread hlow hhigh), hread, ← hb, UInt8.ofNat_toNat]
  rfl

lemma start_char (h : start b = .char c) : String.utf8EncodeChar c = [b] := by
  unfold start at h
  split_ifs at h with hascii
  rw [UInt8.lt_iff_toNat_lt] at hascii
  obtain rfl := Progress.char.inj h
  have hle : b.toNat ≤ 0x7f := Nat.le_of_lt_succ hascii
  rw [encodeChar_ofNat (.inl (by omega)), if_pos hle, UInt8.ofNat_toNat]

lemma start_partway (h : start b = .partway t) : Reading [b] t := by
  unfold start at h
  simp only [UInt8.lt_iff_toNat_lt, ← UInt8.toNat_inj, UInt8.reduceToNat] at h
  split_ifs at h
  -- Whatever the first octet, the numbers that it leaves to the second one decide.
  all_goals
    obtain rfl := Progress.partway.inj h
    refine reading_lead (by simp only [leadMark]; omega) (by decide) fun n hread hlow hhigh => ?_
    simp only [UInt8.reduceToNat] at hlow hhigh
    simp only [LongCode, Nat.isValidChar]
    omega

/-- The code points of a character that `b` continues have the bits of `b` next. -/
lemma Reading.spelled_next (h : Reading front t) (hlow : t.low ≤ b) (hhigh : b ≤ t.high) {n : Nat}
    (hn : n / 64 ^ t.more = t.code * 64 + b.toNat % 64) :
    String.utf8EncodeChar (Char.ofNat n) = front ++ b :: continuation t.more n := by
  obtain ⟨hlowest, -, hhighest⟩ := h.range
  rw [UInt8.le_iff_toNat_le] at hlow hhigh
  have hread : n / 64 ^ (t.more + 1) = t.code := by
    rw [Nat.pow_succ, ← Nat.div_div_eq_div_mul, hn]
    omega
  have hoctet : n / 64 ^ t.more % 64 + 0x80 = b.toNat := by
    rw [hn]
    omega
  rw [h.spelled n hread (by omega) (by omega), continuation, hoctet, UInt8.ofNat_toNat]

lemma Reading.char (h : Reading front t) (hnext : t.next b = .char c) :
    String.utf8EncodeChar c = front ++ [b] := by
  unfold Tail.next at hnext
  split_ifs at hnext with hrange
  cases hmore : t.more with
  | zero =>
    rw [hmore] at hnext
    obtain rfl := Progress.char.inj hnext
    rw [h.spelled_next hrange.1 hrange.2 (by rw [hmore, Nat.pow_zero, Nat.div_one]), hmore]
    rfl
  | succ more =>
    rw [hmore] at hnext
    cases hnext

lemma Reading.partway (h : Reading front t) (hnext : t.next b = .partway u) :
    Reading (front ++ [b]) u := by
  unfold Tail.next at hnext
  split_ifs at hnext with hrange
  cases hmore : t.more with
  | zero =>
    rw [hmore] at hnext
    cases hnext
  | succ more =>
    rw [hmore] at hnext
    obtain rfl := Progress.partway.inj hnext
    refine ⟨by simp, fun n hread _ _ => ?_⟩
    have hcode : n / 64 ^ t.more = t.code * 64 + b.toNat % 64 := by rw [hmore, hread]
    rw [h.spelled_next hrange.1 hrange.2 hcode, hmore, List.append_assoc, List.singleton_append]

/-- What is partway through a character can be completed to one. -/
lemma Reading.completed (h : Reading front t) :
    ∃ c rest, String.utf8EncodeChar c = front ++ rest := by
  obtain ⟨hlowest, hordered, hhighest⟩ := h.range
  let n := (t.code * 64 + (t.low.toNat - 0x80)) * 64 ^ t.more
  have hnext : n / 64 ^ t.more = t.code * 64 + (t.low.toNat - 0x80) :=
    Nat.mul_div_cancel _ (Nat.pow_pos (by decide))
  have hlow : t.low.toNat % 64 = t.low.toNat - 0x80 := by omega
  exact ⟨Char.ofNat n, t.low :: continuation t.more n,
    h.spelled_next (UInt8.le_refl _) (UInt8.le_iff_toNat_le.mpr hordered) (by rw [hnext, hlow])⟩

end Characters

/-! ## Beginnings of texts -/

/-- Nothing malformed has been read. -/
def Clean (d : Decoder) : Prop := d.output.all Option.isSome = true

/-- What the octets behind the last whole character are to the decoder. -/
def Begun (front : List UInt8) : Option Tail → Prop
  | none => front = []
  | some t => Reading front t

/-- The octets spell the characters that have been read, and the beginning of the next one. -/
def TextSoFar (bs : List UInt8) (d : Decoder) : Prop :=
  ∃ (cs : List Char) (front : List UInt8), d.output = (cs.map some).toArray ∧
    bs = cs.flatMap String.utf8EncodeChar ++ front ∧ Begun front d.pending

lemma Begun.completed {front : List UInt8} {pending : Option Tail} (h : Begun front pending) :
    ∃ (cs : List Char) (rest : List UInt8), cs.flatMap String.utf8EncodeChar = front ++ rest := by
  cases pending with
  | none =>
    obtain rfl : front = [] := h
    exact ⟨[], [], rfl⟩
  | some t =>
    obtain ⟨c, rest, hc⟩ := Reading.completed h
    exact ⟨[c], rest, by rw [List.flatMap_singleton, hc]⟩

section Decoders
variable {d : Decoder} {b : UInt8} {bs : List UInt8}

lemma clean_push {output : Array (Option Char)} {c : Option Char} {pending : Option Tail} :
    Clean ⟨output.push c, pending⟩ ↔ output.all Option.isSome = true ∧ c.isSome = true := by
  rw [Clean, Array.all_push, Bool.and_eq_true]

lemma clean_of_begin (h : Clean (d.begin b)) : Clean d := by
  unfold Decoder.begin at h
  cases hstart : start b with
  | char c =>
    rw [hstart] at h
    exact (clean_push.mp h).1
  | partway t =>
    rw [hstart] at h
    exact h
  | malformed =>
    rw [hstart] at h
    exact (clean_push.mp h).1

lemma clean_of_feed (h : Clean (d.feed b)) : Clean d := by
  obtain ⟨output, pending⟩ := d
  cases pending with
  | none => exact clean_of_begin h
  | some t =>
    cases hnext : t.next b with
    | char c =>
      rw [feed_next_char hnext] at h
      exact (clean_push.mp h).1
    | partway u =>
      rw [feed_next_partway hnext] at h
      exact h
    | malformed =>
      simp only [Decoder.feed, hnext] at h
      exact (clean_push.mp (clean_of_begin h)).1

lemma clean_of_foldl (h : Clean (bs.foldl Decoder.feed d)) : Clean d := by
  induction bs generalizing d with
  | nil => exact h
  | cons b bs ih => exact clean_of_feed (ih h)

lemma textSoFar_fresh : TextSoFar [] .fresh := ⟨[], [], rfl, rfl, rfl⟩

/-- As long as nothing is malformed, the octets spell what has been read. -/
lemma TextSoFar.feed (h : TextSoFar bs d) (hclean : Clean (d.feed b)) :
    TextSoFar (bs ++ [b]) (d.feed b) := by
  obtain ⟨output, pending⟩ := d
  obtain ⟨cs, front, houtput, rfl, hfront⟩ := h
  dsimp only at houtput
  have hchar {c : Char} (hc : String.utf8EncodeChar c = front ++ [b]) :
      TextSoFar (cs.flatMap String.utf8EncodeChar ++ front ++ [b]) ⟨output.push (some c), none⟩ := by
    refine ⟨cs ++ [c], [], ?_, ?_, rfl⟩
    · rw [houtput, List.push_toArray, List.map_append]
      rfl
    · rw [List.append_nil, List.flatMap_append, List.flatMap_singleton, hc, List.append_assoc]
  have hpartway {t : Tail} (ht : Reading (front ++ [b]) t) :
      TextSoFar (cs.flatMap String.utf8EncodeChar ++ front ++ [b]) ⟨output, some t⟩ :=
    ⟨cs, front ++ [b], houtput, List.append_assoc _ _ _, ht⟩
  cases pending with
  | none =>
    obtain rfl : front = [] := hfront
    cases hstart : start b with
    | char c =>
      rw [feed_char rfl hstart]
      exact hchar (start_char hstart)
    | partway t =>
      rw [feed_partway rfl hstart]
      exact hpartway (start_partway hstart)
    | malformed =>
      simp only [Decoder.feed, Decoder.begin, hstart] at hclean
      cases (clean_push.mp hclean).2
  | some t =>
    have hread : Reading front t := hfront
    cases hnext : t.next b with
    | char c =>
      rw [feed_next_char hnext]
      exact hchar (hread.char hnext)
    | partway u =>
      rw [feed_next_partway hnext]
      exact hpartway (hread.partway hnext)
    | malformed =>
      simp only [Decoder.feed, hnext] at hclean
      cases (clean_push.mp (clean_of_begin hclean)).2

lemma textSoFar_of_clean (bs : List UInt8) (h : Clean (bs.foldl Decoder.feed .fresh)) :
    TextSoFar bs (bs.foldl Decoder.feed .fresh) := by
  induction bs using List.reverseRecOn with
  | nil => exact textSoFar_fresh
  | append_singleton bs b ih =>
    rw [List.foldl_append] at h ⊢
    exact (ih (clean_of_feed h)).feed h

end Decoders

/-- The decoder finds nothing malformed exactly in what some octets complete to a text. -/
lemma isPartial_iff (data : Bytes) :
    isPartial data = true ↔ ∃ rest s, data ++ rest = Bytes.ofString s := by
  have hscan : scan data = data.toList.foldl Decoder.feed .fresh := by
    rw [scan, Array.foldl_toList]
  constructor
  · intro h
    rw [isPartial, hscan] at h
    obtain ⟨cs, front, -, hspelled, hfront⟩ := textSoFar_of_clean data.toList h
    obtain ⟨more, rest, hmore⟩ := hfront.completed
    refine ⟨rest.toArray, String.ofList (cs ++ more), ?_⟩
    rw [← Array.toList_inj, Array.toList_append, toList_ofString, String.toList_ofList,
      List.flatMap_append, hmore, hspelled, List.toList_toArray, List.append_assoc]
  · rintro ⟨rest, s, htext⟩
    have hwhole : Clean (scan (data ++ rest)) := by
      rw [htext, scan_ofString, Clean]
      simp
    rw [scan, ← Array.foldl_toList, Array.toList_append, List.foldl_append, ← hscan] at hwhole
    exact clean_of_foldl hwhole

/-! ## Media types -/

section MediaTypes
open MediaType
variable {data : Bytes}

lemma ofFile_unmatched (h : sniff? (data.extract 0 headSize) = none) :
    ofFile data =
      if isPartial (data.extract 0 headSize) then "text/plain" else "application/octet-stream" := by
  rw [ofFile]
  simp only [h]

lemma isPartial_cut (s : String) (n : Nat) : isPartial ((Bytes.ofString s).extract 0 n) = true := by
  refine (isPartial_iff _).mpr ⟨(Bytes.ofString s).extract n (Bytes.ofString s).size, s, ?_⟩
  rw [Array.extract_append_extract, Nat.min_eq_left (Nat.zero_le n)]
  exact Array.extract_eq_self_of_le (Nat.le_max_right _ _)

/-- Where no rule fits, a file is plain text exactly if some octets behind its head complete it to a
text, wherever that text has been cut; otherwise it is binary, and nothing completes its head. -/
theorem plain_text_iff_completed (data : Bytes)
    (h : sniff? (data.extract 0 headSize) = none) :
    (ofFile data = "text/plain" ↔ ∃ rest s, data.extract 0 headSize ++ rest = Bytes.ofString s) ∧
      (ofFile data = "application/octet-stream" ↔
        ∀ rest s, data.extract 0 headSize ++ rest ≠ Bytes.ofString s) ∧
      ∀ s n, data = (Bytes.ofString s).extract 0 n → ofFile data = "text/plain" := by
  have htext : ofFile data = "text/plain" ↔ isPartial (data.extract 0 headSize) = true := by
    rw [ofFile_unmatched h]
    split_ifs with hpartial <;> simp [hpartial]
  have hbinary :
      ofFile data = "application/octet-stream" ↔ ¬isPartial (data.extract 0 headSize) = true := by
    rw [ofFile_unmatched h]
    split_ifs with hpartial <;> simp [hpartial]
  refine ⟨htext.trans (isPartial_iff _), hbinary.trans ?_, ?_⟩
  · rw [isPartial_iff]
    simp only [not_exists, ne_eq]
  · rintro s n rfl
    rw [htext, Array.extract_extract]
    exact isPartial_cut s _

/-- A text that is cut inside its last character. -/
theorem plain_text_cut_in_character :
    sniff? ((#[0x61, 0xc3] : Bytes).extract 0 headSize) = none ∧
      ofFile #[0x61, 0xc3] = "text/plain" := by
  have hsniff : sniff? ((#[0x61, 0xc3] : Bytes).extract 0 headSize) = none := by decide +kernel
  obtain ⟨-, -, hcut⟩ := plain_text_iff_completed #[0x61, 0xc3] hsniff
  exact ⟨hsniff, hcut "aé" 2 (by decide +kernel)⟩

/-- An octet that cannot follow makes a text binary for good. -/
example : ofFile #[0xc3, 0x61] = "application/octet-stream" := by decide +kernel

end MediaTypes
end Hallmark.Proofs
