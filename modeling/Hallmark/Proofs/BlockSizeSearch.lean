import Hallmark.FuzzyHash.Search
import Hallmark.Proofs.Passes
import Hallmark.Proofs.SourceReading
import Mathlib.Data.Nat.Find
import Mathlib.Order.Bounds.Basic

/-!
# The search for a block size

The passes of a search start afresh at the initial block size, at half of it and so on. The search
ends at the greatest block size with 32 boundaries in the data, and without a digest exactly when
there are fewer at the least block size. The digest consists of the two piece strings of the data
at the block size that was found.
-/

namespace Hallmark.Proofs
open FuzzyHash

def boundaryCount (data : List UInt8) (b : Nat) : Nat := (boundaries data b).length

/-- The block size with `k` doublings has enough boundaries for a digest. -/
def Enough (data : List UInt8) (k : Nat) : Prop := 32 ≤ boundaryCount data (blockSize k)

instance (data : List UInt8) : DecidablePred (Enough data) :=
  fun k => inferInstanceAs (Decidable (32 ≤ boundaryCount data (blockSize k)))

/-- The search takes `n` turns from `t` to `u`. -/
inductive Reaches (t : Search) : Nat → Search → Prop
  | start : Reaches t 0 t
  | turn {n : Nat} {u v : Search} : Reaches t n u → u.turn = .again v → Reaches t (n + 1) v

/-- A search between two passes over `data`, the next of which starts afresh. -/
structure Between (u : Search) (data : List UInt8) : Prop where
  fresh : u.pass.rewound = .fresh
  steady : Steady u.source
  content : u.source.content.toList = data

/-- The search that the digest of a byte array starts with. -/
def searchOf (data : Bytes) : Search :=
  ⟨initialBlockSize (UInt64.ofNat data.size), .fresh, .ofBytes data⟩

lemma between_searchOf (data : Bytes) : Between (searchOf data) data.toList :=
  ⟨rfl, steady_ofBytes data, rfl⟩

/-! ## Boundaries at neighbouring block sizes -/

lemma boundaryCount_double_le (data : List UInt8) {b : Nat} (hb : 0 < b) :
    boundaryCount data (2 * b) ≤ boundaryCount data b := by
  rw [boundaryCount, boundaryCount, boundaries, boundaries, ← List.countP_eq_length_filter,
    ← List.countP_eq_length_filter]
  refine List.countP_mono_left fun i _ hi => ?_
  rw [decide_eq_true_eq] at hi ⊢
  exact isBoundary_of_double hb hi

lemma boundaryCount_le_append (data t : List UInt8) (b : Nat) :
    boundaryCount data b ≤ boundaryCount (data ++ t) b := by
  induction t using List.reverseRecOn with
  | nil => rw [List.append_nil]
  | append_singleton t x ih =>
    rw [← List.append_assoc, boundaryCount, boundaryCount, boundaries_snoc, List.length_append]
    exact ih.trans (Nat.le_add_right _ _)

lemma boundaryCount_antitone (data : List UInt8) :
    Antitone fun k => boundaryCount data (blockSize k) := by
  refine antitone_nat_of_succ_le fun k => ?_
  rw [blockSize_succ]
  exact boundaryCount_double_le data (by have := blockSize_pos k; omega)

lemma Enough.of_le {data : List UInt8} {j k : Nat} (h : Enough data k) (hjk : j ≤ k) :
    Enough data j :=
  Nat.le_trans h (boundaryCount_antitone data hjk)

/-! ## Block sizes as words -/

lemma size_pos {size : UInt64} {k : Nat} (hsize : size.toNat = blockSize k) : 0 < size.toNat := by
  have hpos := blockSize_pos k
  omega

lemma large_of_blockSize {size : UInt64} {k : Nat} (hsize : size.toNat = blockSize k) :
    ¬size < minBlockSize := by
  have hpos := blockSize_pos k
  have hmin : minBlockSize.toNat = 3 := rfl
  rw [UInt64.lt_iff_toNat_lt]
  omega

lemma toNat_half {size : UInt64} {k : Nat} (hsize : size.toNat = blockSize (k + 1)) :
    (size / 2).toNat = blockSize k := by
  have htwo : (2 : UInt64).toNat = 2 := rfl
  rw [UInt64.toNat_div, hsize, htwo, blockSize_succ]
  omega

lemma half_least {size : UInt64} (hsize : size.toNat = blockSize 0) : size / 2 = 1 := by
  have hthree : size = 3 := UInt64.toNat_inj.mp hsize
  rw [hthree]
  rfl

/-- A pass closes enough pieces exactly when its data has enough boundaries. -/
lemma size_letters_lt_iff {size : UInt64} {k : Nat} (hsize : size.toNat = blockSize k)
    (data : List UInt8) :
    (passOver size data).letters1.size < 32 ↔ ¬Enough data k := by
  rw [(follows_passOver (size_pos hsize) data).first.size, hsize, Enough, boundaryCount]
  omega

/-- The digest of `data` at the block size with `k` doublings. -/
def digestAt (data : List UInt8) (k : Nat) : Digest :=
  ⟨UInt64.ofNat (blockSize k), pieceString data (blockSize k) 63,
    pieceString data (2 * blockSize k) 31⟩

lemma finish_eq_digestAt {size : UInt64} {k : Nat} (hsize : size.toNat = blockSize k)
    (data : List UInt8) : (passOver size data).finish size = digestAt data k := by
  rw [finish_passOver (size_pos hsize) data, digestAt, ← hsize, UInt64.ofNat_toNat]

/-! ## One turn -/

section Turn
variable {u : Search} {data : List UInt8}

/-- A pass of a search sees all of its data, from the start. -/
lemma Between.pass_ends (h : Between u data) :
    ∃ s s', u.source.rewind = (.ok (), s) ∧
      s.fold (Pass.step u.size) u.pass.rewound = (.ok (passOver u.size data), s') ∧
      Steady s' ∧ s'.content.toList = data := by
  obtain ⟨s, hrewind, hsteady, hcontent, hposition, -⟩ := h.steady.rewind
  obtain ⟨s', hfold, hon⟩ := fold_steady (Pass.step u.size) u.pass.rewound hsteady
  have hdata : s.content.toList.drop s.position = data := by
    rw [hposition, List.drop_zero, hcontent, h.content]
  refine ⟨s, s', hrewind, ?_, hon.steady, by rw [hon.content, hcontent, h.content]⟩
  rw [hfold, hdata, h.fresh, passOver]

lemma Between.turn_pass (h : Between u data) (hsize : ¬u.size < minBlockSize) :
    ∃ s, Steady s ∧ s.content.toList = data ∧
      u.turn =
        if (passOver u.size data).letters1.size < 32 then
          .again ⟨u.size / 2, (passOver u.size data).discarded, s⟩
        else .done (.ok ((passOver u.size data).finish u.size)) s := by
  obtain ⟨s, s', hrewind, hfold, hsteady, hcontent⟩ := h.pass_ends
  refine ⟨s', hsteady, hcontent, ?_⟩
  simp only [Search.turn, hrewind, if_neg hsize, hfold]
  rfl

/-- The source is rewound once more, but there is no pass. -/
lemma Between.turn_exhausted (h : Between u data) (hsize : u.size < minBlockSize) :
    ∃ s, u.turn = .done (.error (.blockSizeTooSmall u.size minBlockSize)) s := by
  obtain ⟨s, hrewind, -⟩ := h.steady.rewind
  refine ⟨s, ?_⟩
  simp only [Search.turn, hrewind, if_pos hsize]

variable {k : Nat}

lemma Between.turn_enough (h : Between u data) (hsize : u.size.toNat = blockSize k)
    (henough : Enough data k) :
    ∃ s, u.turn = .done (.ok (digestAt data k)) s := by
  obtain ⟨s, -, -, hturn⟩ := h.turn_pass (large_of_blockSize hsize)
  have hmany : ¬(passOver u.size data).letters1.size < 32 := by
    rw [size_letters_lt_iff hsize data]
    exact not_not_intro henough
  rw [if_neg hmany, finish_eq_digestAt hsize] at hturn
  exact ⟨s, hturn⟩

lemma Between.turn_few (h : Between u data) (hsize : u.size.toNat = blockSize k)
    (hfew : ¬Enough data k) : ∃ v, u.turn = .again v ∧ Between v data ∧ v.size = u.size / 2 := by
  obtain ⟨s, hsteady, hcontent, hturn⟩ := h.turn_pass (large_of_blockSize hsize)
  rw [if_pos ((size_letters_lt_iff hsize data).mpr hfew)] at hturn
  exact ⟨_, hturn, ⟨rfl, hsteady, hcontent⟩, rfl⟩

end Turn

/-! ## The whole search -/

lemma result_of_done {u : Search} {r : Except Failure Digest} {s : Source}
    (h : u.turn = .done r s) : u.result = (r, s) := by
  rw [Search.result]
  split
  · next hturn =>
    rw [h] at hturn
    cases hturn
    rfl
  · next hturn => simp [h] at hturn

lemma result_of_again {u v : Search} (h : u.turn = .again v) : u.result = v.result := by
  rw [Search.result]
  split
  · next hturn => simp [h] at hturn
  · next hturn =>
    rw [h] at hturn
    cases hturn
    rfl

/-- The number of doublings of the greatest block size, with `k` doublings at most, that has enough
boundaries in the data. -/
def found (data : List UInt8) (k : Nat) : Nat := Nat.findGreatest (Enough data) k

/-- A search finds the greatest block size with enough boundaries, and none when there are too few
at the least one. -/
lemma result_between {u : Search} {data : List UInt8} {k : Nat} (h : Between u data)
    (hsize : u.size.toNat = blockSize k) :
    u.result.1 = if Enough data 0 then .ok (digestAt data (found data k))
      else .error (.blockSizeTooSmall 1 3) := by
  induction k generalizing u with
  | zero =>
    by_cases henough : Enough data 0
    · obtain ⟨s, hturn⟩ := h.turn_enough hsize henough
      rw [if_pos henough, result_of_done hturn, found, Nat.findGreatest_zero]
    · obtain ⟨v, hturn, hv, hhalf⟩ := h.turn_few hsize henough
      rw [half_least hsize] at hhalf
      obtain ⟨s, hend⟩ := hv.turn_exhausted (by rw [hhalf]; decide)
      rw [if_neg henough, result_of_again hturn, result_of_done hend, hhalf]
      rfl
  | succ k ih =>
    by_cases henough : Enough data (k + 1)
    · obtain ⟨s, hturn⟩ := h.turn_enough hsize henough
      rw [if_pos (henough.of_le (Nat.zero_le (k + 1))), result_of_done hturn, found,
        Nat.findGreatest_eq henough]
    · obtain ⟨v, hturn, hv, hhalf⟩ := h.turn_few hsize henough
      rw [result_of_again hturn, ih hv (by rw [hhalf]; exact toNat_half hsize), found, found,
        Nat.findGreatest_of_not henough]

/-- Every turn halves the block size, and the last one leaves none. -/
lemma reaches_size {t u : Search} {k n : Nat} (hsize : t.size.toNat = blockSize k)
    (hreach : Reaches t n u) :
    n ≤ k ∧ u.size.toNat = blockSize (k - n) ∨ n = k + 1 ∧ u.size = 1 := by
  induction hreach with
  | start => exact .inl ⟨Nat.zero_le k, hsize⟩
  | @turn n u v _ hturn ih =>
    obtain ⟨hlarge, hhalf⟩ := Search.turn_again hturn
    rcases ih with ⟨hn, hval⟩ | ⟨-, hone⟩
    · rcases Nat.lt_or_eq_of_le hn with hlt | rfl
      · left
        refine ⟨hlt, ?_⟩
        rw [hhalf]
        exact toNat_half (by rw [hval]; congr 1; omega)
      · right
        rw [Nat.sub_self] at hval
        exact ⟨rfl, by rw [hhalf, half_least hval]⟩
    · rw [hone] at hlarge
      exact absurd (by decide) hlarge

/-- Every state that a search reaches is between two passes, with the initial block size halved as
often as there were turns; the turn after the pass at the least block size makes no pass. -/
lemma reaches_between {t u : Search} {data : List UInt8} {k n : Nat} (h : Between t data)
    (hsize : t.size.toNat = blockSize k) (hreach : Reaches t n u) :
    Between u data ∧
      (n ≤ k ∧ u.size.toNat = blockSize (k - n) ∨ n = k + 1 ∧ u.size = 1) := by
  refine ⟨?_, reaches_size hsize hreach⟩
  induction hreach with
  | start => exact h
  | turn _ hturn hbetween =>
    obtain ⟨hlarge, -⟩ := Search.turn_again hturn
    obtain ⟨s, hsteady, hcontent, hpass⟩ := hbetween.turn_pass hlarge
    rw [hpass] at hturn
    split_ifs at hturn with hfew
    cases hturn
    exact ⟨rfl, hsteady, hcontent⟩

/-! ## Digests of byte arrays -/

lemma toNat_blockSize_digestAt {data : List UInt8} {k : Nat} (hk : k ≤ 57) :
    (digestAt data k).blockSize.toNat = blockSize k := by
  have hle := blockSize_mono hk
  have htop : blockSize 57 < 2 ^ 64 := by decide
  exact UInt64.toNat_ofNat_of_lt' (hle.trans_lt htop)

lemma ofSource_of_short (s : Source) {len : UInt64} (h : len < minLength) :
    ofSource s len = .ok none := by
  rw [ofSource, run, if_pos h]

/-- Only long byte arrays have a digest. -/
lemma long_of_digest {data : Bytes} {d : Digest} (h : ofBytes data = .ok (some d)) :
    ¬UInt64.ofNat data.size < minLength := by
  intro hshort
  rw [ofBytes, ofSource_of_short _ hshort] at h
  cases h

/-- What is found in a steady source is decided by its content and by the block size that the search
starts with. -/
lemma ofSource_of_long {s : Source} (h : Steady s) {len : UInt64} {K : Nat}
    (hlong : ¬len < minLength) (hsize : (initialBlockSize len).toNat = blockSize K) :
    ofSource s len =
      if Enough s.content.toList 0 then
        .ok (some (digestAt s.content.toList (found s.content.toList K)))
      else .error (.blockSizeTooSmall 1 3) := by
  let start : Search := ⟨initialBlockSize len, .fresh, s⟩
  have hresult := result_between (u := start) ⟨rfl, h, rfl⟩ hsize
  have hmap : ofSource s len = start.result.1.map some := by
    rw [ofSource, run, if_neg hlong]
    rcases start.result with ⟨_ | _, _⟩ <;> rfl
  rw [hmap, hresult]
  split_ifs <;> rfl

lemma ofBytes_of_long (data : Bytes) {K : Nat} (hlong : ¬UInt64.ofNat data.size < minLength)
    (hsize : (initialBlockSize (UInt64.ofNat data.size)).toNat = blockSize K) :
    ofBytes data =
      if Enough data.toList 0 then .ok (some (digestAt data.toList (found data.toList K)))
      else .error (.blockSizeTooSmall 1 3) :=
  ofSource_of_long (steady_ofBytes data) hlong hsize

/-- The digest of a byte array holds the piece strings of its content, and a search for it lets no
pass begin with anything that an earlier pass left behind. -/
theorem digest_piece_strings (data : Bytes) (d : Digest) (h : ofBytes data = .ok (some d)) :
    let bs := d.blockSize.toNat
    d.hash1 = pieceString data.toList bs 63 ∧
      d.hash2 = pieceString data.toList (2 * bs) 31 ∧
      d.text = toString bs ++ ":" ++ pieceString data.toList bs 63 ++ ":" ++
        pieceString data.toList (2 * bs) 31 ∧
      (∀ i, IsBoundary data.toList (2 * bs) i → IsBoundary data.toList bs i) ∧
      ∀ n u, Reaches (searchOf data) n u → u.pass.rewound = .fresh := by
  obtain ⟨K, hK, hsize, -⟩ := initialBlockSize_spec (UInt64.ofNat data.size)
  have hlong := long_of_digest h
  have hfound : found data.toList K ≤ 57 := (Nat.findGreatest_le K).trans hK
  have hd : d = digestAt data.toList (found data.toList K) := by
    rw [ofBytes_of_long data hlong hsize] at h
    split_ifs at h
    cases h
    rfl
  intro bs
  have hbs : bs = blockSize (found data.toList K) := by
    rw [← toNat_blockSize_digestAt hfound, ← hd]
  have h1 : d.hash1 = pieceString data.toList bs 63 := by rw [hbs, hd, digestAt]
  have h2 : d.hash2 = pieceString data.toList (2 * bs) 31 := by rw [hbs, hd, digestAt]
  refine ⟨h1, h2, by rw [Digest.text, h1, h2], fun i => ?_, fun n u hreach => ?_⟩
  · have hpos := blockSize_pos (found data.toList K)
    exact isBoundary_of_double (by omega)
  · exact (reaches_between (between_searchOf data) hsize hreach).1.fresh

/-- Bytes with a boundary at the least block size behind every byte from the seventh on. -/
def fours : Bytes := Array.replicate 4096 4

lemma minLength_le_fours : minLength ≤ UInt64.ofNat fours.size := by
  rw [fours, Array.size_replicate]
  decide

lemma enough_fours : Enough fours.toList 0 := by
  have hsplit : fours.toList = List.replicate 38 4 ++ List.replicate 4058 4 := by
    rw [fours, Array.toList_replicate, List.replicate_append_replicate]
  have hfirst : 32 ≤ boundaryCount (List.replicate 38 4) 3 := by decide +kernel
  rw [Enough, hsplit]
  exact hfirst.trans (boundaryCount_le_append _ _ _)

lemma exists_digest_fours : ∃ d, ofBytes fours = .ok (some d) := by
  obtain ⟨K, -, hsize, -⟩ := initialBlockSize_spec (UInt64.ofNat fours.size)
  have hlong := UInt64.not_lt.mpr minLength_le_fours
  exact ⟨_, (ofBytes_of_long fours hlong hsize).trans (if_pos enough_fours)⟩

/-- The digest of these bytes is found at the least block size, after passes that were discarded. -/
theorem digest_piece_strings_fours :
    ∃ d, ofBytes fours = .ok (some d) ∧
      d.hash1 = pieceString fours.toList d.blockSize.toNat 63 ∧
      d.hash2 = pieceString fours.toList (2 * d.blockSize.toNat) 31 := by
  obtain ⟨d, hd⟩ := exists_digest_fours
  obtain ⟨h1, h2, -⟩ := digest_piece_strings fours d hd
  exact ⟨d, hd, h1, h2⟩

/-- The search for a block size is exact: with `T b` boundaries in the data at block size `b` and an
initial block size `3 * 2 ^ K`, a digest is found at the greatest block size up to the initial one
that has 32 boundaries, and there is none when even `T 3` is less. A turn makes a pass unless its
block size is below the least one, so the passes are those of the turns `0` to `K` at most. -/
theorem block_size_search_exact (data : Bytes) (hmin : minLength ≤ UInt64.ofNat data.size) :
    let T := boundaryCount data.toList
    ∃ K, (initialBlockSize (UInt64.ofNat data.size)).toNat = 3 * 2 ^ K ∧
      (Antitone fun k => T (3 * 2 ^ k)) ∧
      ((∃ d, ofBytes data = .ok (some d)) ↔ 32 ≤ T 3) ∧
      (∀ d, ofBytes data = .ok (some d) →
        ∃ k, d.blockSize.toNat = 3 * 2 ^ k ∧ IsGreatest {j | j ≤ K ∧ 32 ≤ T (3 * 2 ^ j)} k) ∧
      (¬32 ≤ T 3 → ofBytes data = .error (.blockSizeTooSmall 1 3)) ∧
      ∀ n u, Reaches (searchOf data) n u → ¬u.size < minBlockSize →
        n ≤ K ∧ ∃ j ≤ K, u.size.toNat = 3 * 2 ^ j := by
  obtain ⟨K, hK, hsize, -⟩ := initialBlockSize_spec (UInt64.ofNat data.size)
  have hresult := ofBytes_of_long data (UInt64.not_lt.mpr hmin) hsize
  intro T
  refine ⟨K, hsize, boundaryCount_antitone data.toList, ⟨?_, ?_⟩, ?_, ?_, ?_⟩
  · rintro ⟨d, hd⟩
    rw [hresult] at hd
    split_ifs at hd with hleast
    exact hleast
  · intro hleast
    exact ⟨_, hresult.trans (if_pos hleast)⟩
  · intro d hd
    rw [hresult] at hd
    split_ifs at hd with hleast
    cases hd
    refine ⟨found data.toList K, ?_, ⟨Nat.findGreatest_le K, ?_⟩, ?_⟩
    · exact toNat_blockSize_digestAt ((Nat.findGreatest_le K).trans hK)
    · exact Nat.findGreatest_spec (Nat.zero_le K) hleast
    · rintro j ⟨hj, henough⟩
      exact Nat.le_findGreatest hj henough
  · intro hfew
    exact hresult.trans (if_neg hfew)
  · intro n u hreach hlarge
    rcases (reaches_between (between_searchOf data) hsize hreach).2 with ⟨hn, hval⟩ | ⟨-, hone⟩
    · exact ⟨hn, K - n, Nat.sub_le K n, hval⟩
    · rw [hone] at hlarge
      exact absurd (by decide) hlarge

theorem block_size_search_fours :
    minLength ≤ UInt64.ofNat fours.size ∧ 32 ≤ boundaryCount fours.toList 3 ∧
      ∃ d, ofBytes fours = .ok (some d) := by
  obtain ⟨K, -, -, hexact, -⟩ := block_size_search_exact fours minLength_le_fours
  exact ⟨minLength_le_fours, enough_fours, hexact.mpr enough_fours⟩

end Hallmark.Proofs
