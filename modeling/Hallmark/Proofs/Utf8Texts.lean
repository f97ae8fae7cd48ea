import Hallmark.Text.Utf8
import Mathlib.Tactic.Lemma
import Mathlib.Tactic.SplitIfs

/-!
# Texts in UTF-8

The decoder gives a text back from its octets, and a text without a zero character has no zero
octet.
-/

namespace Hallmark.Proofs
open Utf8

lemma start_ascii : ∀ n < 0x80, start (UInt8.ofNat n) = .char (Char.ofNat n) := by
  decide

lemma start_pair : ∀ n < 0x20, 2 ≤ n →
    start (UInt8.ofNat (n + 0xc0)) = .partway ⟨0x80, 0xbf, 0, n⟩ := by
  decide

/-- The second octet of three keeps away from shorter spellings and from surrogates. -/
lemma start_triple : ∀ n < 0x10, start (UInt8.ofNat (n + 0xe0)) =
    .partway ⟨if n = 0 then 0xa0 else 0x80, if n = 13 then 0x9f else 0xbf, 1, n⟩ := by
  decide

lemma start_quadruple : ∀ n < 5, start (UInt8.ofNat (n + 0xf0)) =
    .partway ⟨if n = 0 then 0x90 else 0x80, if n = 4 then 0x8f else 0xbf, 2, n⟩ := by
  decide

/-- An octet that continues a character adds six bits to it. -/
lemma next_octet {low high : UInt8} {code n : Nat} (more : Nat) (hn : n < 0x40)
    (hlow : low.toNat ≤ n + 0x80) (hhigh : n + 0x80 ≤ high.toNat) :
    (⟨low, high, more, code⟩ : Tail).next (UInt8.ofNat (n + 0x80)) =
      match more with
      | 0 => .char (Char.ofNat (code * 64 + n))
      | more + 1 => .partway ⟨0x80, 0xbf, more, code * 64 + n⟩ := by
  have hoctet : (UInt8.ofNat (n + 0x80)).toNat = n + 0x80 :=
    UInt8.toNat_ofNat_of_lt (by simp only [UInt8.size]; omega)
  have hrange : low ≤ UInt8.ofNat (n + 0x80) ∧ UInt8.ofNat (n + 0x80) ≤ high := by
    rw [UInt8.le_iff_toNat_le, UInt8.le_iff_toNat_le, hoctet]
    exact ⟨hlow, hhigh⟩
  have hcode : code * 64 + (UInt8.ofNat (n + 0x80)).toNat % 64 = code * 64 + n := by
    rw [hoctet]
    omega
  cases more with
  | zero =>
    refine (if_pos hrange).trans ?_
    exact congrArg (fun k => Progress.char (Char.ofNat k)) hcode
  | succ more =>
    refine (if_pos hrange).trans ?_
    exact congrArg (fun k => Progress.partway ⟨0x80, 0xbf, more, k⟩) hcode

lemma next_tail {code n : Nat} (more : Nat) (hn : n < 0x40) :
    (⟨0x80, 0xbf, more, code⟩ : Tail).next (UInt8.ofNat (n + 0x80)) =
      match more with
      | 0 => .char (Char.ofNat (code * 64 + n))
      | more + 1 => .partway ⟨0x80, 0xbf, more, code * 64 + n⟩ :=
  next_octet more hn (Nat.le_add_left _ _) (Nat.add_le_add_right (Nat.le_of_lt_succ hn) 0x80)

section Feed
variable {d : Decoder} {output : Array (Option Char)} {t u : Tail} {b : UInt8} {c : Char}

lemma feed_char (hd : d.pending = none) (h : start b = .char c) :
    d.feed b = ⟨d.output.push (some c), none⟩ := by
  simp only [Decoder.feed, hd, Decoder.begin, h]

lemma feed_partway (hd : d.pending = none) (h : start b = .partway t) :
    d.feed b = ⟨d.output, some t⟩ := by
  simp only [Decoder.feed, hd, Decoder.begin, h]

lemma feed_next_char (h : t.next b = .char c) :
    Decoder.feed ⟨output, some t⟩ b = ⟨output.push (some c), none⟩ := by
  simp only [Decoder.feed, h]

lemma feed_next_partway (h : t.next b = .partway u) :
    Decoder.feed ⟨output, some t⟩ b = ⟨output, some u⟩ := by
  simp only [Decoder.feed, h]

lemma feed_encodeChar (c : Char) (hd : d.pending = none) :
    (String.utf8EncodeChar c).foldl Decoder.feed d = ⟨d.output.push (some c), none⟩ := by
  have hchar : Char.ofNat c.val.toNat = c := Char.ofNat_toNat c
  have hvalid : c.val.toNat < 0xd800 ∨ 0xdfff < c.val.toNat ∧ c.val.toNat < 0x110000 := c.valid
  unfold String.utf8EncodeChar
  generalize c.val.toNat = v at hchar hvalid
  simp only
  -- By the number of octets: `hvalid` gives the bounds of the second one of three and of four.
  split_ifs with hone htwo hthree
  · rw [List.foldl_cons, feed_char hd (start_ascii v (by omega)), hchar]
    rfl
  · have hv : v / 64 % 0x20 * 64 + v % 0x40 = v := by omega
    rw [List.foldl_cons, feed_partway hd (start_pair _ (by omega) (by omega)), List.foldl_cons,
      feed_next_char (next_tail 0 (by omega)), hv, hchar]
    rfl
  · have hv : (v / 4096 % 0x10 * 64 + v / 64 % 0x40) * 64 + v % 0x40 = v := by omega
    rw [List.foldl_cons, feed_partway hd (start_triple _ (by omega)), List.foldl_cons,
      feed_next_partway (next_octet 1 (by omega) ?_ ?_), List.foldl_cons,
      feed_next_char (next_tail 0 (by omega)), hv, hchar]
    · rfl
    · split_ifs <;> simp only [UInt8.reduceToNat]
      all_goals omega
    · split_ifs <;> simp only [UInt8.reduceToNat]
      all_goals omega
  · have hv : ((v / 262144 % 0x08 * 64 + v / 4096 % 0x40) * 64 + v / 64 % 0x40) * 64 + v % 0x40 =
        v := by omega
    rw [List.foldl_cons, feed_partway hd (start_quadruple _ (by omega)), List.foldl_cons,
      feed_next_partway (next_octet 2 (by omega) ?_ ?_), List.foldl_cons,
      feed_next_partway (next_tail 1 (by omega)), List.foldl_cons,
      feed_next_char (next_tail 0 (by omega)), hv, hchar]
    · rfl
    · split_ifs <;> simp only [UInt8.reduceToNat]
      all_goals omega
    · split_ifs <;> simp only [UInt8.reduceToNat]
      all_goals omega

end Feed

lemma toList_ofString (s : String) :
    (Bytes.ofString s).toList = s.toList.flatMap String.utf8EncodeChar := by
  have hbytes : s.toByteArray = s.toList.utf8Encode := by
    rw [← String.toByteArray_ofList, String.ofList_toList]
  rw [Bytes.ofString, String.toUTF8_eq_toByteArray, hbytes, List.utf8Encode,
    List.data_toByteArray, List.toList_toArray]

lemma foldl_feed_encode (cs : List Char) (output : Array (Option Char)) :
    (cs.flatMap String.utf8EncodeChar).foldl Decoder.feed ⟨output, none⟩ =
      ⟨output ++ (cs.map some).toArray, none⟩ := by
  induction cs generalizing output with
  | nil => simp
  | cons c cs ih =>
    rw [List.flatMap_cons, List.foldl_append, feed_encodeChar c rfl, ih]
    simp

lemma scan_ofString (s : String) :
    scan (Bytes.ofString s) = ⟨(s.toList.map some).toArray, none⟩ := by
  rw [scan, ← Array.foldl_toList, toList_ofString, Decoder.fresh, foldl_feed_encode]
  simp

theorem lossy_ofString (s : String) : lossy (Bytes.ofString s) = s := by
  have hchars : (s.toList.map some).map (fun c => c.getD '\uFFFD') = s.toList := by
    rw [List.map_map]
    exact List.map_id _
  rw [lossy, scan_ofString, Decoder.close, Option.isSome_none, if_neg Bool.false_ne_true,
    List.toList_toArray, hchars, String.ofList_toList]

lemma ofString_inj {s t : String} : Bytes.ofString s = Bytes.ofString t ↔ s = t := by
  refine ⟨fun h => ?_, congrArg _⟩
  rw [← lossy_ofString s, h, lossy_ofString]

lemma ofNat_ne_zero {n : Nat} (hn : n % 256 ≠ 0) : (0 : UInt8) ≠ UInt8.ofNat n := by
  intro h
  have hzero := congrArg UInt8.toNat h
  rw [UInt8.toNat_ofNat'] at hzero
  exact hn hzero.symm

lemma zero_not_mem_encodeChar {c : Char} (hc : c ≠ '\x00') : 0 ∉ String.utf8EncodeChar c := by
  have hv : c.val.toNat ≠ 0 := fun h => hc (Char.toNat_inj.mp h)
  unfold String.utf8EncodeChar
  generalize c.val.toNat = v at hv
  simp only
  split_ifs with hone htwo hthree
  all_goals
    simp only [List.mem_cons, List.not_mem_nil, or_false, not_or]
  · exact ofNat_ne_zero (by omega)
  · exact ⟨ofNat_ne_zero (by omega), ofNat_ne_zero (by omega)⟩
  · exact ⟨ofNat_ne_zero (by omega), ofNat_ne_zero (by omega), ofNat_ne_zero (by omega)⟩
  · exact ⟨ofNat_ne_zero (by omega), ofNat_ne_zero (by omega), ofNat_ne_zero (by omega),
      ofNat_ne_zero (by omega)⟩

lemma zero_not_mem_ofString {s : String} (hs : '\x00' ∉ s.toList) :
    0 ∉ (Bytes.ofString s).toList := by
  rw [toList_ofString, List.mem_flatMap]
  rintro ⟨c, hc, hzero⟩
  have hne : c ≠ '\x00' := fun h => hs (h ▸ hc)
  exact zero_not_mem_encodeChar hne hzero

end Hallmark.Proofs
