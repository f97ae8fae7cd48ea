import Hallmark.FuzzyHash.Pass
import Hallmark.Proofs.BlockSizes
import Mathlib.Data.List.Basic
import Mathlib.Data.List.Induction

/-!
# Pieces

What the piece strings of a pass are, said without its state: the data is cut behind its first
boundaries, every closed segment gives the letter of its hash, and what lies behind the last cut
gives a letter more unless the rolling sum is zero there. A pass computes just that.
-/

namespace Hallmark.Proofs
open FuzzyHash

def rollingAfter (data : List UInt8) : Rolling := data.foldl Rolling.push .fresh

/-- The rolling sum behind byte `i`. -/
def rollingSum (data : List UInt8) (i : Nat) : Nat := (rollingAfter (data.take (i + 1))).sum.toNat

/-- A boundary at block size `b` stands behind byte `i`. -/
def IsBoundary (data : List UInt8) (b i : Nat) : Prop := rollingSum data i % b = b - 1

instance (data : List UInt8) (b i : Nat) : Decidable (IsBoundary data b i) :=
  inferInstanceAs (Decidable (_ = _))

def boundaries (data : List UInt8) (b : Nat) : List Nat :=
  (List.range data.length).filter (IsBoundary data b ·)

/-- The segments of `data` from `start` on that end with the given bytes. -/
def segments (data : List UInt8) : (start : Nat) → (cuts : List Nat) → List (List UInt8)
  | _, [] => []
  | start, i :: cuts => (data.take (i + 1)).drop start :: segments data (i + 1) cuts

/-- The place behind the last cut. -/
def openStart (start : Nat) (cuts : List Nat) : Nat := cuts.foldl (fun _ i => i + 1) start

def segmentMix (hash : Nat) (b : UInt8) : Nat := (hash * 0x01000193 % 2 ^ 32) ^^^ b.toNat

def segmentHash (segment : List UInt8) : Nat := segment.foldl segmentMix 0x28021967

def segmentLetter (segment : List UInt8) : Char := alphabet.getD (segmentHash segment % 64) 'A'

/-- The cuts of a piece string that closes at most `cap` pieces. -/
def cuts (data : List UInt8) (b cap : Nat) : List Nat := (boundaries data b).take cap

/-- The bytes behind the last cut. -/
def openSegment (data : List UInt8) (b cap : Nat) : List UInt8 :=
  data.drop (openStart 0 (cuts data b cap))

def closedLetters (data : List UInt8) (b cap : Nat) : List Char :=
  (segments data 0 (cuts data b cap)).map segmentLetter

/-- A finished piece string. -/
def pieceString (data : List UInt8) (b cap : Nat) : String :=
  String.ofList (closedLetters data b cap ++
    if (rollingAfter data).sum = 0 then [] else [segmentLetter (openSegment data b cap)])

/-! ## The hash of a segment -/

/-- The hash of a segment as a pass keeps it. -/
def pieceHash (segment : List UInt8) : UInt32 := segment.foldl pieceMix pieceSeed

lemma pieceHash_snoc (segment : List UInt8) (x : UInt8) :
    pieceHash (segment ++ [x]) = pieceMix (pieceHash segment) x := by
  rw [pieceHash, List.foldl_concat, ← pieceHash]

lemma segmentHash_snoc (segment : List UInt8) (x : UInt8) :
    segmentHash (segment ++ [x]) = segmentMix (segmentHash segment) x := by
  rw [segmentHash, List.foldl_concat, ← segmentHash]

lemma toNat_pieceMix (hash : UInt32) (x : UInt8) :
    (pieceMix hash x).toNat = segmentMix hash.toNat x := by
  rw [pieceMix, segmentMix, UInt32.toNat_xor, UInt32.toNat_mul, UInt8.toNat_toUInt32,
    UInt32.toNat_ofNat]

lemma toNat_pieceHash (segment : List UInt8) : (pieceHash segment).toNat = segmentHash segment := by
  induction segment using List.reverseRecOn with
  | nil => simp [pieceHash, segmentHash, pieceSeed]
  | append_singleton segment x ih => rw [pieceHash_snoc, segmentHash_snoc, toNat_pieceMix, ih]

lemma letter_pieceHash (segment : List UInt8) :
    letter (pieceHash segment) = segmentLetter segment := by
  rw [letter, segmentLetter, ← toNat_pieceHash, UInt32.toNat_mod]
  rfl

/-! ## Boundaries -/

lemma rollingAfter_snoc (data : List UInt8) (x : UInt8) :
    rollingAfter (data ++ [x]) = (rollingAfter data).push x := by
  rw [rollingAfter, List.foldl_concat, ← rollingAfter]

lemma rollingSum_append {data : List UInt8} {i : Nat} (h : i < data.length) (t : List UInt8) :
    rollingSum (data ++ t) i = rollingSum data i := by
  rw [rollingSum, List.take_append_of_le_length (by omega), ← rollingSum]

lemma rollingSum_last (data : List UInt8) (x : UInt8) :
    rollingSum (data ++ [x]) data.length = ((rollingAfter data).push x).sum.toNat := by
  rw [rollingSum, List.take_of_length_le (by simp), rollingAfter_snoc]

/-- No boundaries are found at block sizes that a rolling sum cannot reach. -/
lemma IsBoundary.le {data : List UInt8} {b i : Nat} (h : IsBoundary data b i) : b ≤ 2 ^ 32 := by
  have hsum : rollingSum data i < 2 ^ 32 := UInt32.toNat_lt _
  have hmod := Nat.mod_le (rollingSum data i) b
  unfold IsBoundary at h
  omega

lemma isBoundary_append {data : List UInt8} {i : Nat} (h : i < data.length) (t : List UInt8)
    (b : Nat) : IsBoundary (data ++ t) b i ↔ IsBoundary data b i := by
  rw [IsBoundary, IsBoundary, rollingSum_append h]

lemma boundaries_snoc (data : List UInt8) (x : UInt8) (b : Nat) :
    boundaries (data ++ [x]) b = boundaries data b ++
      if IsBoundary (data ++ [x]) b data.length then [data.length] else [] := by
  have hold : (List.range data.length).filter (IsBoundary (data ++ [x]) b ·) = boundaries data b := by
    refine List.filter_congr fun i hi => ?_
    exact decide_eq_decide.mpr (isBoundary_append (List.mem_range.mp hi) [x] b)
  rw [boundaries, List.length_append, List.length_singleton, List.range_succ, List.filter_append,
    hold, List.filter_singleton]
  simp

lemma lt_of_mem_boundaries {data : List UInt8} {b i : Nat} (h : i ∈ boundaries data b) :
    i < data.length :=
  List.mem_range.mp (List.mem_filter.mp h).1

/-- Boundaries at twice a block size are boundaries at the block size. -/
lemma isBoundary_of_double {data : List UInt8} {b i : Nat} (hb : 0 < b)
    (h : IsBoundary data (2 * b) i) : IsBoundary data b i := by
  unfold IsBoundary at h ⊢
  have hdvd : b ∣ 2 * b := Nat.dvd_mul_left b 2
  have hlast : (2 * b - 1) % b = b - 1 := by
    rw [show 2 * b - 1 = b - 1 + b by omega, Nat.add_mod_right, Nat.mod_eq_of_lt (by omega)]
  rw [← Nat.mod_mod_of_dvd _ hdvd, h, hlast]

/-! ## Cuts and segments -/

lemma openStart_snoc (start : Nat) (cuts : List Nat) (i : Nat) :
    openStart start (cuts ++ [i]) = i + 1 := by
  rw [openStart, List.foldl_concat]

lemma openStart_append (start : Nat) (cuts more : List Nat) :
    openStart start (cuts ++ more) = openStart (openStart start cuts) more := by
  rw [openStart, List.foldl_append, ← openStart, ← openStart]

lemma segments_cuts_append (data : List UInt8) (start : Nat) (cuts more : List Nat) :
    segments data start (cuts ++ more) =
      segments data start cuts ++ segments data (openStart start cuts) more := by
  induction cuts generalizing start with
  | nil => rfl
  | cons j cuts ih => simp only [List.cons_append, segments, ih, openStart, List.foldl_cons]

lemma segments_snoc (data : List UInt8) (start : Nat) (cuts : List Nat) (i : Nat) :
    segments data start (cuts ++ [i]) =
      segments data start cuts ++ [(data.take (i + 1)).drop (openStart start cuts)] :=
  segments_cuts_append data start cuts [i]

lemma segments_take (data : List UInt8) (start : Nat) (cuts : List Nat) (n : Nat) :
    segments data start (cuts.take n) = (segments data start cuts).take n := by
  induction cuts generalizing start n with
  | nil => simp [segments]
  | cons i cuts ih =>
    cases n with
    | zero => rfl
    | succ n => simp only [List.take_succ_cons, segments, ih]

lemma segments_append {data : List UInt8} (start : Nat) {cuts : List Nat}
    (h : ∀ i ∈ cuts, i < data.length) (t : List UInt8) :
    segments (data ++ t) start cuts = segments data start cuts := by
  induction cuts generalizing start with
  | nil => rfl
  | cons i cuts ih =>
    have hi : i < data.length := h i List.mem_cons_self
    rw [segments, segments, List.take_append_of_le_length (by omega),
      ih (i + 1) fun j hj => h j (List.mem_cons_of_mem i hj)]

lemma length_segments (data : List UInt8) (start : Nat) (cuts : List Nat) :
    (segments data start cuts).length = cuts.length := by
  induction cuts generalizing start with
  | nil => rfl
  | cons i cuts ih => rw [segments, List.length_cons, List.length_cons, ih]

lemma openStart_le {cuts : List Nat} {start n : Nat} (hstart : start ≤ n) (h : ∀ i ∈ cuts, i < n) :
    openStart start cuts ≤ n := by
  cases cuts using List.reverseRecOn with
  | nil => exact hstart
  | append_singleton cuts i =>
    rw [openStart_snoc]
    exact h i (by simp)

lemma lt_of_mem_cuts {data : List UInt8} {b cap i : Nat} (h : i ∈ cuts data b cap) :
    i < data.length :=
  lt_of_mem_boundaries (List.mem_of_mem_take h)

lemma openStart_cuts_le (data : List UInt8) (b cap : Nat) :
    openStart 0 (cuts data b cap) ≤ data.length :=
  openStart_le (Nat.zero_le _) fun _ => lt_of_mem_cuts

lemma length_closedLetters (data : List UInt8) (b cap : Nat) :
    (closedLetters data b cap).length = min cap (boundaries data b).length := by
  rw [closedLetters, List.length_map, length_segments, cuts, List.length_take]

/-- A boundary behind a new byte closes the open segment while there is room for its letter. -/
lemma cuts_snoc_boundary {data : List UInt8} {x : UInt8} {b cap : Nat}
    (hx : IsBoundary (data ++ [x]) b data.length) (hroom : (boundaries data b).length < cap) :
    cuts (data ++ [x]) b cap = cuts data b cap ++ [data.length] := by
  rw [cuts, cuts, boundaries_snoc, if_pos hx, List.take_of_length_le (by simp; omega),
    List.take_of_length_le hroom.le]

/-- Otherwise a new byte leaves the cuts as they are. -/
lemma cuts_snoc_other {data : List UInt8} {x : UInt8} {b cap : Nat}
    (hx : ¬IsBoundary (data ++ [x]) b data.length ∨ cap ≤ (boundaries data b).length) :
    cuts (data ++ [x]) b cap = cuts data b cap := by
  rw [cuts, cuts, boundaries_snoc]
  rcases hx with hx | hfull
  · rw [if_neg hx, List.append_nil]
  · rw [List.take_append_of_le_length hfull]

lemma openSegment_snoc_boundary {data : List UInt8} {x : UInt8} {b cap : Nat}
    (hx : IsBoundary (data ++ [x]) b data.length) (hroom : (boundaries data b).length < cap) :
    openSegment (data ++ [x]) b cap = [] := by
  rw [openSegment, cuts_snoc_boundary hx hroom, openStart_snoc]
  exact List.drop_of_length_le (by simp)

lemma closedLetters_snoc_boundary {data : List UInt8} {x : UInt8} {b cap : Nat}
    (hx : IsBoundary (data ++ [x]) b data.length) (hroom : (boundaries data b).length < cap) :
    closedLetters (data ++ [x]) b cap =
      closedLetters data b cap ++ [segmentLetter (openSegment data b cap ++ [x])] := by
  have hclosed : ((data ++ [x]).take (data.length + 1)).drop (openStart 0 (cuts data b cap)) =
      openSegment data b cap ++ [x] := by
    rw [List.take_of_length_le (by simp), List.drop_append_of_le_length (openStart_cuts_le data b cap),
      ← openSegment]
  rw [closedLetters, cuts_snoc_boundary hx hroom, segments_snoc, hclosed,
    segments_append 0 (fun _ => lt_of_mem_cuts), List.map_append, ← closedLetters]
  rfl

lemma openSegment_snoc_other {data : List UInt8} {x : UInt8} {b cap : Nat}
    (hx : ¬IsBoundary (data ++ [x]) b data.length ∨ cap ≤ (boundaries data b).length) :
    openSegment (data ++ [x]) b cap = openSegment data b cap ++ [x] := by
  rw [openSegment, cuts_snoc_other hx, List.drop_append_of_le_length (openStart_cuts_le data b cap),
    ← openSegment]

lemma closedLetters_snoc_other {data : List UInt8} {x : UInt8} {b cap : Nat}
    (hx : ¬IsBoundary (data ++ [x]) b data.length ∨ cap ≤ (boundaries data b).length) :
    closedLetters (data ++ [x]) b cap = closedLetters data b cap := by
  rw [closedLetters, cuts_snoc_other hx, segments_append 0 (fun _ => lt_of_mem_cuts), ← closedLetters]

end Hallmark.Proofs
