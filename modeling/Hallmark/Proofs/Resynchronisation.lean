import Hallmark.Proofs.BlockSizeSearch
import Hallmark.Proofs.RollingWindow

/-!
# Pieces behind a change

Whether there is a boundary is decided by seven bytes, and at a boundary the hash of a piece starts
anew. Behind seven bytes that end at a boundary, a piece string goes on in the same way whatever
stands in front of them, as long as it has room for letters.
-/

namespace Hallmark.Proofs
open FuzzyHash

def lastSeven (data : List UInt8) : List UInt8 := data.drop (data.length - 7)

/-- The last byte completes a boundary. -/
def EndsAtBoundary (data : List UInt8) (b : Nat) : Prop := IsBoundary data b (data.length - 1)

instance (data : List UInt8) (b : Nat) : Decidable (EndsAtBoundary data b) :=
  inferInstanceAs (Decidable (IsBoundary _ _ _))

/-- The boundaries in data that is read behind `window`. -/
def laterBoundaries (window data : List UInt8) (b : Nat) : List Nat :=
  (List.range data.length).filter fun i => IsBoundary (window ++ data) b (window.length + i)

/-- The letters of the pieces that are closed in `data`, when a piece starts with its first byte. -/
def laterLetters (window data : List UInt8) (b : Nat) : List Char :=
  (segments data 0 (laterBoundaries window data b)).map segmentLetter

/-- The letter of the piece that is open at the end of the data. -/
def laterTrailing (window data : List UInt8) (b : Nat) : List Char :=
  if (rollingAfter (window ++ data)).sum = 0 then []
  else [segmentLetter (data.drop (openStart 0 (laterBoundaries window data b)))]

/-! ## The last seven bytes -/

lemma exists_append_lastSeven (data : List UInt8) : ∃ front, data = front ++ lastSeven data :=
  ⟨data.take (data.length - 7), (List.take_append_drop _ _).symm⟩

section Window
variable {data : List UInt8} (h : 7 ≤ data.length)
include h

lemma length_lastSeven : (lastSeven data).length = 7 := by
  rw [lastSeven, List.length_drop]
  omega

lemma lastSeven_append (front : List UInt8) : lastSeven (front ++ data) = lastSeven data := by
  have hlength : (front ++ data).length - 7 = front.length + (data.length - 7) := by
    rw [List.length_append]
    omega
  rw [lastSeven, hlength, List.drop_length_add_append, lastSeven]

end Window

/-! ## Boundaries behind a window -/

lemma endsAtBoundary_append {data : List UInt8} (h : 7 ≤ data.length) (front : List UInt8)
    (b : Nat) : EndsAtBoundary (front ++ data) b ↔ EndsAtBoundary data b := by
  have hlast : (front ++ data).length - 1 = front.length + (data.length - 1) := by
    rw [List.length_append]
    omega
  rw [EndsAtBoundary, EndsAtBoundary, hlast]
  exact isBoundary_behind (by omega) (by omega) front b

section Later
variable {data : List UInt8} (h : 7 ≤ data.length) (t : List UInt8) (b : Nat)
include h

lemma isBoundary_later {i : Nat} (hi : i < t.length) :
    IsBoundary (data ++ t) b (data.length + i) ↔
      IsBoundary (lastSeven data ++ t) b ((lastSeven data).length + i) := by
  obtain ⟨front, hfront⟩ := exists_append_lastSeven data
  have hseven := length_lastSeven h
  have hplace : data.length + i = front.length + ((lastSeven data).length + i) := by
    rw [← Nat.add_assoc, ← List.length_append, ← hfront]
  have hwhole : data ++ t = front ++ (lastSeven data ++ t) := by
    rw [← List.append_assoc, ← hfront]
  rw [hplace, hwhole]
  apply isBoundary_behind
  · omega
  · rw [List.length_append]
    omega

lemma sum_later : (rollingAfter (data ++ t)).sum = (rollingAfter (lastSeven data ++ t)).sum := by
  obtain ⟨front, hfront⟩ := exists_append_lastSeven data
  have hlong : 7 ≤ (lastSeven data ++ t).length := by
    rw [List.length_append, length_lastSeven h]
    omega
  have hwhole : data ++ t = front ++ (lastSeven data ++ t) := by
    rw [← List.append_assoc, ← hfront]
  rw [hwhole]
  exact (sameWindow_append hlong front).sum_eq

lemma boundaries_later : boundaries (data ++ t) b =
    boundaries data b ++ (laterBoundaries (lastSeven data) t b).map (data.length + ·) := by
  have hold : (List.range data.length).filter (IsBoundary (data ++ t) b ·) = boundaries data b := by
    apply List.filter_congr
    intro i hi
    exact decide_eq_decide.mpr (isBoundary_append (List.mem_range.mp hi) t b)
  have hnew : (List.range t.length).filter ((IsBoundary (data ++ t) b ·) ∘ (data.length + ·)) =
      laterBoundaries (lastSeven data) t b := by
    apply List.filter_congr
    intro i hi
    exact decide_eq_decide.mpr (isBoundary_later h t b (List.mem_range.mp hi))
  rw [boundaries, List.length_append, List.range_add, List.filter_append, hold, List.filter_map,
    hnew]

end Later

/-- The last cut of data that ends at a boundary stands at its end. -/
lemma openStart_boundaries {data : List UInt8} {b : Nat} (hnonempty : 0 < data.length)
    (h : EndsAtBoundary data b) : openStart 0 (boundaries data b) = data.length := by
  cases data using List.reverseRecOn with
  | nil => exact absurd hnonempty (Nat.lt_irrefl 0)
  | append_singleton data x =>
    have hx : IsBoundary (data ++ [x]) b data.length := by
      simpa [EndsAtBoundary] using h
    rw [boundaries_snoc, if_pos hx, openStart_snoc, List.length_append, List.length_singleton]

/-! ## Segments behind a place -/

lemma segments_behind (front data : List UInt8) (start : Nat) (cuts : List Nat) :
    segments (front ++ data) (front.length + start) (cuts.map (front.length + ·)) =
      segments data start cuts := by
  induction cuts generalizing start with
  | nil => rfl
  | cons i cuts ih =>
    rw [List.map_cons, segments, segments, Nat.add_assoc, ih, List.take_length_add_append,
      List.drop_length_add_append]

lemma openStart_behind (n start : Nat) (cuts : List Nat) :
    openStart (n + start) (cuts.map (n + ·)) = n + openStart start cuts := by
  cases cuts using List.reverseRecOn with
  | nil => rfl
  | append_singleton cuts i =>
    rw [List.map_append, List.map_singleton, openStart_snoc, openStart_snoc, Nat.add_assoc]

/-! ## What follows a boundary -/

section Behind
variable {data : List UInt8} {b cap : Nat} (h : 7 ≤ data.length)
include h

lemma cuts_later (hroom : boundaryCount data b ≤ cap) (t : List UInt8) :
    cuts (data ++ t) b cap = boundaries data b ++
      ((laterBoundaries (lastSeven data) t b).take (cap - boundaryCount data b)).map
        (data.length + ·) := by
  rw [cuts, boundaries_later h, List.take_append, List.take_of_length_le hroom, ← List.map_take,
    ← boundaryCount]

variable (hend : EndsAtBoundary data b)
include hend

lemma closedLetters_later (hroom : boundaryCount data b ≤ cap) (t : List UInt8) :
    closedLetters (data ++ t) b cap = closedLetters data b cap ++
      (laterLetters (lastSeven data) t b).take (cap - (closedLetters data b cap).length) := by
  have hcuts : cuts data b cap = boundaries data b := List.take_of_length_le hroom
  have hlength : (closedLetters data b cap).length = boundaryCount data b := by
    rw [length_closedLetters]
    exact Nat.min_eq_right hroom
  have hopen := openStart_boundaries (by omega) hend
  have hsegments : segments (data ++ t) 0 (cuts (data ++ t) b cap) =
      segments data 0 (cuts data b cap) ++
        segments t 0
          ((laterBoundaries (lastSeven data) t b).take (cap - boundaryCount data b)) := by
    rw [cuts_later h hroom, segments_cuts_append, segments_append 0 (fun _ => lt_of_mem_boundaries),
      hopen, hcuts]
    exact congrArg (segments data 0 (boundaries data b) ++ ·) (segments_behind data t 0 _)
  rw [closedLetters, hsegments, List.map_append, ← closedLetters, hlength, segments_take,
    List.map_take, ← laterLetters]

/-- As long as no boundary is lost, the piece that is open at the end is the same too. -/
lemma openSegment_later {t : List UInt8} (hkept : boundaryCount (data ++ t) b ≤ cap) :
    openSegment (data ++ t) b cap =
      t.drop (openStart 0 (laterBoundaries (lastSeven data) t b)) := by
  have hcuts : cuts (data ++ t) b cap = boundaries (data ++ t) b := List.take_of_length_le hkept
  have hbehind :
      openStart data.length ((laterBoundaries (lastSeven data) t b).map (data.length + ·)) =
        data.length + openStart 0 (laterBoundaries (lastSeven data) t b) :=
    openStart_behind data.length 0 _
  rw [openSegment, hcuts, boundaries_later h, openStart_append,
    openStart_boundaries (by omega) hend, hbehind, List.drop_length_add_append]

lemma pieceString_later {t : List UInt8} (hkept : boundaryCount (data ++ t) b ≤ cap) :
    pieceString (data ++ t) b cap =
      String.ofList (closedLetters (data ++ t) b cap ++ laterTrailing (lastSeven data) t b) := by
  rw [pieceString, openSegment_later h hend hkept, sum_later h, laterTrailing]

end Behind

/-! ## Passes -/

/-- One of the strings of a pass goes on in the same way behind all data that ends with the same
boundary. The letters that follow, as far as there is room for them, and the letter of the open
piece, when no boundary was lost, are found by looking at seven bytes in front of them. -/
def Resynchronises (b cap : Nat) (letters : List UInt8 → List Char)
    (finished : List UInt8 → String) : Prop :=
  ∀ front s t : List UInt8, 7 ≤ s.length → EndsAtBoundary s b → boundaryCount (front ++ s) b ≤ cap →
    letters (front ++ s ++ t) = letters (front ++ s) ++
        (laterLetters (lastSeven s) t b).take (cap - (letters (front ++ s)).length) ∧
      (boundaryCount (front ++ s ++ t) b ≤ cap →
        finished (front ++ s ++ t) =
          String.ofList (letters (front ++ s ++ t) ++ laterTrailing (lastSeven s) t b))

lemma resynchronises_of {b cap : Nat} {letters : List UInt8 → List Char}
    {finished : List UInt8 → String} (hletters : ∀ data, letters data = closedLetters data b cap)
    (hfinished : ∀ data, finished data = pieceString data b cap) :
    Resynchronises b cap letters finished := by
  intro front s t hs hend hroom
  have hlong : 7 ≤ (front ++ s).length := by
    rw [List.length_append]
    omega
  have hsame := (endsAtBoundary_append hs front b).mpr hend
  have hwindow := lastSeven_append hs front
  simp only [hletters, hfinished]
  constructor
  · rw [closedLetters_later hlong hsame hroom, hwindow]
  · intro hkept
    rw [pieceString_later hlong hsame hkept, hwindow]

/-- Whether bytes end at a boundary does not depend on what stands in front of seven of them, and
behind such a boundary both strings of a pass are the same for all beginnings, up to their ends. -/
theorem boundaries_resynchronise (size : UInt64) (k : Nat) (hsize : size.toNat = 3 * 2 ^ k) :
    (∀ (front s : List UInt8) (b : Nat), 7 ≤ s.length →
        (EndsAtBoundary (front ++ s) b ↔ EndsAtBoundary s b)) ∧
      Resynchronises size.toNat 63 (fun data => (passOver size data).letters1.toList)
        (fun data => ((passOver size data).finish size).hash1) ∧
      Resynchronises (2 * size.toNat) 31 (fun data => (passOver size data).letters2.toList)
        (fun data => ((passOver size data).finish size).hash2) := by
  have hpos : 0 < size.toNat := size_pos hsize
  refine ⟨fun front s b hs => endsAtBoundary_append hs front b, ?_, ?_⟩
  · apply resynchronises_of
    · intro data
      exact (follows_passOver hpos data).first.letters
    · intro data
      rw [finish_passOver hpos]
  · apply resynchronises_of
    · intro data
      exact (follows_passOver hpos data).second.letters
    · intro data
      rw [finish_passOver hpos]

/-- Seven bytes behind two beginnings: the strings differ in front of the boundary only. -/
theorem boundaries_resynchronise_sample :
    let s : List UInt8 := [4, 4, 4, 4, 4, 4, 5]
    let t : List UInt8 := [6, 4, 4, 4, 4, 4, 4, 5, 1]
    (3 : UInt64).toNat = 3 * 2 ^ 0 ∧ 7 ≤ s.length ∧ EndsAtBoundary s 3 ∧ EndsAtBoundary s 6 ∧
      ∀ front ∈ [[9, 8, 7], [1, 2, 3, 4]],
        let p := passOver 3 (front ++ s)
        let q := passOver 3 (front ++ s ++ t)
        q.letters1.toList = p.letters1.toList ++ ['j', '3', '3', '3', 'g', 'k'] ∧
          (q.finish 3).hash1 = String.ofList (q.letters1.toList ++ ['n']) ∧
          q.letters2.toList = p.letters2.toList ++ ['j', '3', '3', 'Q'] ∧
          (q.finish 3).hash2 = String.ofList (q.letters2.toList ++ ['k']) := by
  intro s t
  have hend : EndsAtBoundary s 3 := by decide +kernel
  have hend2 : EndsAtBoundary s 6 := by decide +kernel
  refine ⟨rfl, by decide, hend, hend2, ?_⟩
  intro front hfront
  have hcounts : boundaryCount (front ++ s) 3 ≤ 63 ∧ boundaryCount (front ++ s ++ t) 3 ≤ 63 ∧
      boundaryCount (front ++ s) 6 ≤ 31 ∧ boundaryCount (front ++ s ++ t) 6 ≤ 31 := by
    revert front
    decide +kernel
  have hlater :
      (laterLetters (lastSeven s) t 3).take (63 - (passOver 3 (front ++ s)).letters1.size) =
          ['j', '3', '3', '3', 'g', 'k'] ∧
        (laterLetters (lastSeven s) t 6).take (31 - (passOver 3 (front ++ s)).letters2.size) =
          ['j', '3', '3', 'Q'] := by
    revert front
    decide +kernel
  have htrailing : laterTrailing (lastSeven s) t 3 = ['n'] ∧
      laterTrailing (lastSeven s) t 6 = ['k'] := by
    decide +kernel
  obtain ⟨hcount, hkept, hcount2, hkept2⟩ := hcounts
  obtain ⟨-, hfirst, hsecond⟩ := boundaries_resynchronise 3 0 rfl
  obtain ⟨hletters, hfinished⟩ := hfirst front s t (by decide) hend hcount
  obtain ⟨hletters2, hfinished2⟩ := hsecond front s t (by decide) hend2 hcount2
  refine ⟨?_, ?_, ?_, ?_⟩
  · rw [← hlater.1, ← Array.length_toList]
    exact hletters
  · rw [← htrailing.1]
    exact hfinished hkept
  · rw [← hlater.2, ← Array.length_toList]
    exact hletters2
  · rw [← htrailing.2]
    exact hfinished2 hkept2

end Hallmark.Proofs
