import Hallmark.Proofs.Pieces
import Mathlib.Tactic.SplitIfs

/-!
# Passes compute piece strings

One byte moves a pass in the way in which it moves the cuts of the data read so far, so a fresh
pass ends with the letters of the closed segments and with the hashes of the open ones.
-/

namespace Hallmark.Proofs
open FuzzyHash

/-! ## Closing a piece -/

section Close
variable (p : Pass)

@[simp] lemma close1_rolling : p.close1.rolling = p.rolling := by
  unfold Pass.close1
  split_ifs <;> rfl

@[simp] lemma close1_letters2 : p.close1.letters2 = p.letters2 := by
  unfold Pass.close1
  split_ifs <;> rfl

@[simp] lemma close1_piece2 : p.close1.piece2 = p.piece2 := by
  unfold Pass.close1
  split_ifs <;> rfl

@[simp] lemma close2_rolling : p.close2.rolling = p.rolling := by
  unfold Pass.close2
  split_ifs <;> rfl

@[simp] lemma close2_letters1 : p.close2.letters1 = p.letters1 := by
  unfold Pass.close2
  split_ifs <;> rfl

@[simp] lemma close2_piece1 : p.close2.piece1 = p.piece1 := by
  unfold Pass.close2
  split_ifs <;> rfl

@[simp] lemma close1_letters1 : p.close1.letters1 =
    if p.letters1.size < 63 then p.letters1.push (letter p.piece1) else p.letters1 := by
  rw [Pass.close1, apply_ite Pass.letters1]
  rfl

@[simp] lemma close1_piece1 : p.close1.piece1 =
    if p.letters1.size < 63 then pieceSeed else p.piece1 := by
  rw [Pass.close1, apply_ite Pass.piece1]
  rfl

@[simp] lemma close2_letters2 : p.close2.letters2 =
    if p.letters2.size < 31 then p.letters2.push (letter p.piece2) else p.letters2 := by
  rw [Pass.close2, apply_ite Pass.letters2]
  rfl

@[simp] lemma close2_piece2 : p.close2.piece2 =
    if p.letters2.size < 31 then pieceSeed else p.piece2 := by
  rw [Pass.close2, apply_ite Pass.piece2]
  rfl

end Close

lemma step_eq (size : UInt64) (p : Pass) (x : UInt8) :
    p.step size x =
      if Pass.atBoundary (p.rolling.push x) size then
        if Pass.atBoundary (p.rolling.push x) (size * 2) then (p.absorb x).close1.close2
        else (p.absorb x).close1
      else p.absorb x := by
  simp only [Pass.step, close1_rolling]
  rfl

/-! ## One string -/

/-- The letters and the open piece of a string are those of the cuts at block size `b`. -/
structure Spells (letters : Array Char) (piece : UInt32) (data : List UInt8) (b cap : Nat) : Prop where
  letters : letters.toList = closedLetters data b cap
  piece : piece = pieceHash (openSegment data b cap)

namespace Spells
variable {letters : Array Char} {piece : UInt32} {data : List UInt8} {x : UInt8} {b cap : Nat}

lemma empty (b cap : Nat) : Spells #[] pieceSeed [] b cap := by
  have hcuts : cuts [] b cap = [] := List.take_nil
  constructor
  · rw [closedLetters, hcuts]
    rfl
  · rw [openSegment, hcuts]
    rfl

lemma size (h : Spells letters piece data b cap) :
    letters.size = min cap (boundaries data b).length := by
  rw [← Array.length_toList, h.letters, length_closedLetters]

lemma other (h : Spells letters piece data b cap)
    (hx : ¬IsBoundary (data ++ [x]) b data.length) :
    Spells letters (pieceMix piece x) (data ++ [x]) b cap := by
  constructor
  · rw [closedLetters_snoc_other (.inl hx), h.letters]
  · rw [openSegment_snoc_other (.inl hx), pieceHash_snoc, h.piece]

lemma boundary (h : Spells letters piece data b cap)
    (hx : IsBoundary (data ++ [x]) b data.length) :
    Spells (if letters.size < cap then letters.push (letter (pieceMix piece x)) else letters)
      (if letters.size < cap then pieceSeed else pieceMix piece x) (data ++ [x]) b cap := by
  have hsize := h.size
  by_cases hroom : (boundaries data b).length < cap
  · have hlt : letters.size < cap := by omega
    rw [if_pos hlt, if_pos hlt]
    constructor
    · rw [closedLetters_snoc_boundary hx hroom, Array.toList_push, h.letters, h.piece,
        ← pieceHash_snoc, letter_pieceHash]
    · rw [openSegment_snoc_boundary hx hroom]
      rfl
  · have hfull : ¬letters.size < cap := by omega
    rw [if_neg hfull, if_neg hfull]
    constructor
    · rw [closedLetters_snoc_other (.inr (by omega)), h.letters]
    · rw [openSegment_snoc_other (.inr (by omega)), pieceHash_snoc, h.piece]

end Spells

/-! ## Both strings -/

/-- The state of a pass is that of the data it has read, cut at block sizes `b` and `2 * b`. -/
structure Follows (p : Pass) (data : List UInt8) (b : Nat) : Prop where
  rolling : p.rolling = rollingAfter data
  first : Spells p.letters1 p.piece1 data b 63
  second : Spells p.letters2 p.piece2 data (2 * b) 31

lemma follows_fresh (b : Nat) : Follows .fresh [] b := ⟨rfl, .empty b 63, .empty (2 * b) 31⟩

lemma atBoundary_iff {size : UInt64} (hsize : 0 < size.toNat) (data : List UInt8) (x : UInt8) :
    Pass.atBoundary ((rollingAfter data).push x) size = true ↔
      IsBoundary (data ++ [x]) size.toNat data.length := by
  have hone : (1 : UInt64) ≤ size := by
    rw [UInt64.le_iff_toNat_le]
    exact hsize
  rw [Pass.atBoundary, beq_iff_eq, ← UInt64.toNat_inj, UInt64.toNat_mod,
    UInt64.toNat_sub_of_le _ _ hone, UInt32.toNat_toUInt64, IsBoundary, rollingSum_last]
  rfl

/-- The second string is only looked at where the first one has a boundary. It misses none of its
own there, since boundaries at twice the block size are boundaries at the block size. -/
lemma Follows.step {size : UInt64} {p : Pass} {data : List UInt8} (hpos : 0 < size.toNat)
    (h : Follows p data size.toNat) (x : UInt8) :
    Follows (p.step size x) (data ++ [x]) size.toNat := by
  have hb := atBoundary_iff hpos data x
  rw [← h.rolling] at hb
  have hrolling : p.rolling.push x = rollingAfter (data ++ [x]) := by
    rw [h.rolling, rollingAfter_snoc]
  rw [step_eq]
  by_cases h1 : Pass.atBoundary (p.rolling.push x) size = true
  · have hx := hb.mp h1
    -- Where there is a boundary, the block size is small enough to be doubled.
    have hdouble : (size * 2).toNat = 2 * size.toNat := by
      have hle := hx.le
      have hroom : 2 * size.toNat < 2 ^ 64 := by omega
      rw [UInt64.toNat_mul, Nat.mul_comm]
      exact Nat.mod_eq_of_lt hroom
    have hb2 := atBoundary_iff (show 0 < (size * 2).toNat by omega) data x
    rw [← h.rolling, hdouble] at hb2
    rw [if_pos h1]
    split_ifs with h2
    · refine ⟨by simpa [Pass.absorb] using hrolling, ?_, ?_⟩
      · simpa [Pass.absorb] using h.first.boundary hx
      · simpa [Pass.absorb] using h.second.boundary (hb2.mp h2)
    · refine ⟨by simpa [Pass.absorb] using hrolling, ?_, ?_⟩
      · simpa [Pass.absorb] using h.first.boundary hx
      · simpa [Pass.absorb] using h.second.other (mt hb2.mpr h2)
  · have hx := mt hb.mpr h1
    rw [if_neg h1]
    exact ⟨hrolling, h.first.other hx, h.second.other (mt (isBoundary_of_double hpos) hx)⟩

/-- A pass over `data` from a fresh state. -/
def passOver (size : UInt64) (data : List UInt8) : Pass := data.foldl (Pass.step size) .fresh

lemma follows_passOver {size : UInt64} (hpos : 0 < size.toNat) (data : List UInt8) :
    Follows (passOver size data) data size.toNat := by
  induction data using List.reverseRecOn with
  | nil => exact follows_fresh size.toNat
  | append_singleton data x ih =>
    rw [passOver, List.foldl_concat, ← passOver]
    exact ih.step hpos x

/-- A finished pass gives the two piece strings of its data. -/
lemma finish_passOver {size : UInt64} (hpos : 0 < size.toNat) (data : List UInt8) :
    (passOver size data).finish size =
      ⟨size, pieceString data size.toNat 63, pieceString data (2 * size.toNat) 31⟩ := by
  have h := follows_passOver hpos data
  rw [Pass.finish, h.rolling, pieceString, pieceString]
  split_ifs with hzero
  · rw [h.first.letters, h.second.letters, List.append_nil, List.append_nil]
  · rw [Array.toList_push, Array.toList_push, h.first.letters, h.second.letters, h.first.piece,
      h.second.piece, letter_pieceHash, letter_pieceHash]

end Hallmark.Proofs
