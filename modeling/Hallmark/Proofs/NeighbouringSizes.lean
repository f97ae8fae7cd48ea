import Hallmark.Proofs.BlockSizeSearch
import Hallmark.Proofs.RollingWindow

/-!
# Digests at neighbouring block sizes

The second string of a pass is the beginning of the first string at twice the block size. A search
that has halved its block size gave up a pass with few pieces just before, and what it then finds
has for its second string all of the first one that the pass given up would have had.
-/

namespace Hallmark.Proofs
open FuzzyHash

lemma closedLetters_take (data : List UInt8) (b : Nat) {cap more : Nat} (h : cap ≤ more) :
    (closedLetters data b more).take cap = closedLetters data b cap := by
  rw [closedLetters, ← List.map_take, ← segments_take, cuts, List.take_take, Nat.min_eq_left h,
    ← cuts, ← closedLetters]

/-- A cap that leaves no boundary out has no effect on a piece string. -/
lemma pieceString_of_few {data : List UInt8} {b cap more : Nat} (hfew : boundaryCount data b ≤ cap)
    (h : cap ≤ more) : pieceString data b cap = pieceString data b more := by
  have hcuts : ∀ n, cap ≤ n → cuts data b n = boundaries data b :=
    fun n hn => List.take_of_length_le (hfew.trans hn)
  rw [pieceString, pieceString, closedLetters, closedLetters, openSegment, openSegment,
    hcuts cap (Nat.le_refl cap), hcuts more h]

/-- In one turn of a search a pass ends in the state `p` and is given up. -/
def Discards (u : Search) (p : Pass) : Prop :=
  ∃ s s', u.source.rewind = (.ok (), s) ∧
    s.fold (Pass.step u.size) u.pass.rewound = (.ok p, s') ∧
    u.turn = .again ⟨u.size / 2, p.discarded, s'⟩

section Search
variable {t u : Search} {data : List UInt8} {k K : Nat}

lemma Between.discards (h : Between u data) (hsize : u.size.toNat = blockSize k)
    (hfew : ¬Enough data k) : Discards u (passOver u.size data) := by
  obtain ⟨s, s', hrewind, hfold, -⟩ := h.pass_ends
  have hletters := (size_letters_lt_iff hsize data).mpr hfew
  refine ⟨s, s', hrewind, hfold, ?_⟩
  simp only [Search.turn, hrewind, if_neg (large_of_blockSize hsize), hfold]
  exact if_pos hletters

/-- A search gets down to every block size above which there are too few boundaries. -/
lemma Between.reaches (h : Between t data) (hsize : t.size.toNat = blockSize K) {n : Nat}
    (hn : n ≤ K) (hfew : ∀ j, K - n < j → j ≤ K → ¬Enough data j) :
    ∃ u, Reaches t n u ∧ Between u data ∧ u.size.toNat = blockSize (K - n) := by
  induction n with
  | zero => exact ⟨t, .start, h, hsize⟩
  | succ n ih =>
    obtain ⟨u, hreach, hu, hval⟩ := ih (by omega) fun j hj => hfew j (by omega)
    obtain ⟨v, hturn, hv, hhalf⟩ := hu.turn_few hval (hfew (K - n) (by omega) (Nat.sub_le K n))
    refine ⟨v, .turn hreach hturn, hv, ?_⟩
    rw [hhalf]
    apply toNat_half
    rw [hval]
    congr 1
    omega

end Search

/-- The second string of a digest at less than the initial block size is the first string of the
pass that was given up before. -/
lemma second_of_given_up {data : Bytes} {K k : Nat}
    (hsize : (initialBlockSize (UInt64.ofNat data.size)).toNat = blockSize K) (hk : k < K)
    (hfound : found data.toList K = k) :
    ∃ n u p, Reaches (searchOf data) n u ∧ u.size.toNat = 2 * blockSize k ∧ Discards u p ∧
      (p.finish u.size).hash1 = (digestAt data.toList k).hash2 := by
  have hgreatest : ∀ j, k < j → j ≤ K → ¬Enough data.toList j := by
    intro j hj hjK
    rw [← hfound] at hj
    exact Nat.findGreatest_is_greatest hj hjK
  obtain ⟨u, hreach, hu, hval⟩ := (between_searchOf data).reaches hsize
    (show K - (k + 1) ≤ K by omega) fun j hj => hgreatest j (by omega)
  have hplace : K - (K - (k + 1)) = k + 1 := by omega
  rw [hplace] at hval
  have hfew : ¬Enough data.toList (k + 1) := hgreatest (k + 1) (Nat.lt_succ_self k) hk
  refine ⟨_, u, _, hreach, by rw [hval, blockSize_succ], hu.discards hval hfew, ?_⟩
  have hcount : boundaryCount data.toList (blockSize (k + 1)) ≤ 31 := by
    rw [Enough] at hfew
    omega
  rw [finish_eq_digestAt hval]
  calc (digestAt data.toList (k + 1)).hash1
      = pieceString data.toList (blockSize (k + 1)) 31 :=
        (pieceString_of_few hcount (show 31 ≤ 63 by decide)).symm
    _ = (digestAt data.toList k).hash2 := by rw [digestAt, blockSize_succ]

/-- The second string of a pass has the first 31 letters of the first string at twice the block
size. The second field of a digest that was found at less than the initial block size is, with its
last letter, the first field that the pass before would have had if it had not been given up. -/
theorem neighbouring_sizes_agree (data : Bytes) :
    (∀ (k : Nat) (size double : UInt64), size.toNat = 3 * 2 ^ k → double.toNat = 2 * (3 * 2 ^ k) →
        (passOver size data.toList).letters2.toList =
          (passOver double data.toList).letters1.toList.take 31) ∧
      ∀ d, ofBytes data = .ok (some d) → d.blockSize < initialBlockSize (UInt64.ofNat data.size) →
        ∃ n u p, Reaches (searchOf data) n u ∧ u.size.toNat = 2 * d.blockSize.toNat ∧
          Discards u p ∧ (p.finish u.size).hash1 = d.hash2 := by
  constructor
  · intro k size double hsize hdouble
    have hpos := size_pos hsize
    have hdoublePos : 0 < double.toNat := by omega
    rw [(follows_passOver hpos data.toList).second.letters,
      (follows_passOver hdoublePos data.toList).first.letters, hsize, hdouble,
      closedLetters_take _ _ (show 31 ≤ 63 by decide)]
  · intro d hd hless
    obtain ⟨K, hK, hsize, -⟩ := initialBlockSize_spec (UInt64.ofNat data.size)
    rw [ofBytes_of_long data (long_of_digest hd) hsize] at hd
    split_ifs at hd
    cases hd
    have hfound : found data.toList K ≤ K := Nat.findGreatest_le K
    have hval : (digestAt data.toList (found data.toList K)).blockSize.toNat =
        blockSize (found data.toList K) :=
      toNat_blockSize_digestAt (hfound.trans hK)
    have hlt : found data.toList K < K := by
      refine lt_of_le_of_ne hfound fun heq => ?_
      rw [UInt64.lt_iff_toNat_lt, hval, hsize, heq] at hless
      exact Nat.lt_irrefl _ hless
    rw [hval]
    exact second_of_given_up hsize hlt rfl

/-- Behind the first six of these bytes the rolling sum stays the same, and has no boundary at the
initial block size. -/
lemma few_boundaries_fours : ¬Enough fours.toList 5 := by
  have hearly : boundaries fours.toList (blockSize 5) ⊆ List.range 6 := by
    intro i hi
    rw [List.mem_range]
    by_contra hlate
    have hlength := lt_of_mem_boundaries hi
    have hboundary : IsBoundary fours.toList (blockSize 5) i :=
      of_decide_eq_true (List.mem_filter.mp hi).2
    obtain ⟨n, rfl⟩ := Nat.exists_eq_add_of_le' (Nat.not_lt.mp hlate)
    rw [fours, Array.toList_replicate, List.length_replicate] at hlength
    let window : List UInt8 := List.replicate 7 4
    let rest : List UInt8 := List.replicate (4089 - n) 4
    have hsplit : fours.toList = List.replicate n 4 ++ (window ++ rest) := by
      rw [fours, Array.toList_replicate, List.replicate_append_replicate,
        List.replicate_append_replicate]
      congr 1
      omega
    have hwindow : 6 < window.length := by decide
    have hinside : 6 < (window ++ rest).length := by
      rw [List.length_append]
      omega
    have hbehind := isBoundary_behind (Nat.le_refl 6) hinside (List.replicate n 4) (blockSize 5)
    rw [List.length_replicate] at hbehind
    rw [hsplit, hbehind, isBoundary_append hwindow] at hboundary
    revert hboundary
    decide +kernel
  have hnodup : (boundaries fours.toList (blockSize 5)).Nodup := List.nodup_range.filter _
  have hcount := (hnodup.subperm hearly).length_le
  rw [List.length_range] at hcount
  rw [Enough, boundaryCount]
  omega

/-- The passes over these bytes at the initial block size and down to twice the least one are all
given up. -/
theorem neighbouring_sizes_agree_fours :
    (3 : UInt64).toNat = 3 * 2 ^ 0 ∧ (6 : UInt64).toNat = 2 * (3 * 2 ^ 0) ∧
      (passOver 3 fours.toList).letters2.toList =
        (passOver 6 fours.toList).letters1.toList.take 31 ∧
      ∃ d, ofBytes fours = .ok (some d) ∧
        d.blockSize < initialBlockSize (UInt64.ofNat fours.size) ∧
        ∃ n u p, Reaches (searchOf fours) n u ∧ u.size.toNat = 2 * d.blockSize.toNat ∧
          Discards u p ∧ (p.finish u.size).hash1 = d.hash2 := by
  obtain ⟨hletters, hdigest⟩ := neighbouring_sizes_agree fours
  have hsize : initialBlockSize (UInt64.ofNat fours.size) = 96 := by
    rw [fours, Array.size_replicate]
    decide +kernel
  have hlong := UInt64.not_lt.mpr minLength_le_fours
  have hd := (ofBytes_of_long fours (K := 5) hlong (by rw [hsize]; rfl)).trans
    (if_pos enough_fours)
  have hfound : found fours.toList 5 ≤ 4 := by
    rw [found, Nat.findGreatest_of_not few_boundaries_fours]
    exact Nat.findGreatest_le 4
  have hless : (digestAt fours.toList (found fours.toList 5)).blockSize <
      initialBlockSize (UInt64.ofNat fours.size) := by
    have hle : blockSize (found fours.toList 5) ≤ 48 := blockSize_mono hfound
    have hinitial : (96 : UInt64).toNat = 96 := rfl
    rw [UInt64.lt_iff_toNat_lt, toNat_blockSize_digestAt (by omega), hsize]
    omega
  exact ⟨rfl, rfl, hletters 0 3 6 rfl rfl, _, hd, hless, hdigest _ hd hless⟩

end Hallmark.Proofs
