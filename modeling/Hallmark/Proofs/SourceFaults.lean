import Hallmark.Proofs.FailingSources
import Hallmark.Proofs.Streaming

/-!
# Digests of sources that fail

A search meets a fault of its source or does not notice it. A fault that it meets, in whatever pass
and also in the seek behind the last one, is its result, so that no digest is made of a part of the
content; one that lies behind everything the search does leaves the result as it is.
-/

namespace Hallmark.Proofs
open FuzzyHash

/-! ## Searches over a changed source -/

/-- The search `t` on the source that `g` makes of its own. -/
def onChanged (g : Source → Source) (t : Search) : Search := { t with source := g t.source }

/-- The source behind a turn. -/
def sourceOf : Search.Turn → Source
  | .done _ s => s
  | .again next => next.source

def changedTurn (g : Source → Source) : Search.Turn → Search.Turn
  | .done result s => .done result (g s)
  | .again next => .again (onChanged g next)

/-- What a turn makes of the source `s`. -/
structure Rewound (s t : Source) : Prop where
  seeks : t.seeks = s.seeks + 1
  content : t.content = s.content
  failRead : t.failRead = s.failRead
  failSeek : t.failSeek = s.failSeek

lemma rewound_rewind (s : Source) : Rewound s s.rewind.2 := by
  unfold Source.rewind
  split
  · exact ⟨rfl, rfl, rfl, rfl⟩
  · exact ⟨rfl, rfl, rfl, rfl⟩

lemma Rewound.fold {β : Type} {s t : Source} (h : Rewound s t) (f : β → UInt8 → β) (state : β) :
    Rewound s (t.fold f state).2 := by
  refine fold_keeps f state (P := Rewound s) ?_ h
  intro u hu
  obtain ⟨position, script, hread⟩ := read_source u Source.bufferSize
  rw [hread]
  exact ⟨hu.seeks, hu.content, hu.failRead, hu.failSeek⟩

lemma rewound_turn (t : Search) : Rewound t.source (sourceOf t.turn) := by
  have hrewind := rewound_rewind t.source
  unfold Search.turn
  generalize t.source.rewind = r at hrewind
  obtain ⟨_ | _, s⟩ := r
  · exact hrewind
  · dsimp only
    split
    · exact hrewind
    · have hfold := hrewind.fold (Pass.step t.size) t.pass.rewound
      generalize s.fold (Pass.step t.size) t.pass.rewound = q at hfold
      obtain ⟨_ | pass, s'⟩ := q
      · exact hfold
      · dsimp only
        split <;> exact hfold

/-- A turn does not notice a change that neither its seek nor its reads notice. -/
lemma turn_onChanged {g : Source → Source} {P : Source → Prop} (h : Unnoticed g P) {t : Search}
    (hrewind : (g t.source).rewind = (t.source.rewind.1, g t.source.rewind.2))
    (hP : t.source.rewind.1 = .ok () → P t.source.rewind.2) :
    (onChanged g t).turn = changedTurn g t.turn := by
  unfold Search.turn onChanged
  dsimp only
  rw [hrewind]
  generalize t.source.rewind = r at hP
  obtain ⟨_ | _, s⟩ := r
  · rfl
  · dsimp only
    split
    · rfl
    · rw [h.fold _ _ (hP rfl)]
      generalize s.fold (Pass.step t.size) t.pass.rewound = q
      obtain ⟨_ | pass, s'⟩ := q
      · rfl
      · dsimp only
        split <;> rfl

/-! ## A seek that fails -/

section Seek
variable {t v : Search} {n : Nat}

lemma seeks_of_done {r : Except Failure Digest} {s : Source} (h : t.turn = .done r s) :
    t.result.2.seeks = t.source.seeks + 1 := by
  have hseeks := (rewound_turn t).seeks
  rw [h] at hseeks
  rw [result_of_done h]
  exact hseeks

lemma seeks_of_again (h : t.turn = .again v) : v.source.seeks = t.source.seeks + 1 := by
  have hseeks := (rewound_turn t).seeks
  rwa [h] at hseeks

lemma turn_failingSeek (h : t.source.seeks + 1 = n) :
    ∃ s, (onChanged (failingSeek n) t).turn = .done (.error (.source .seek)) s := by
  have hhit : (failingSeek n t.source).failSeek = some ((failingSeek n t.source).seeks + 1) :=
    congrArg some h.symm
  refine ⟨{ failingSeek n t.source with seeks := t.source.seeks + 1 }, ?_⟩
  rw [Search.turn, onChanged, Source.rewind, if_pos hhit]
  rfl

lemma turn_failingSeek_other (hnone : t.source.failSeek = none) (h : t.source.seeks + 1 ≠ n) :
    (onChanged (failingSeek n) t).turn = changedTurn (failingSeek n) t.turn := by
  apply turn_onChanged (unnoticed_failingSeek n)
  · have hfree : ¬t.source.failSeek = some (t.source.seeks + 1) := by simp [hnone]
    have hmiss : ¬(failingSeek n t.source).failSeek =
        some ((failingSeek n t.source).seeks + 1) := by
      intro hhit
      exact h (Option.some.inj hhit).symm
    rw [Source.rewind, Source.rewind, if_neg hfree, if_neg hmiss]
    rfl
  · intro _
    trivial

lemma seeks_le_result (t : Search) : t.source.seeks < t.result.2.seeks := by
  induction t using Search.result.induct with
  | case1 t r s hturn =>
    rw [seeks_of_done hturn]
    omega
  | case2 t v hturn ih =>
    have hseeks := seeks_of_again hturn
    rw [result_of_again hturn]
    omega

/-- The failure of a seek is the result of a search that makes this seek, and of no other. -/
theorem result_failingSeek (hnone : t.source.failSeek = none) (hn : t.source.seeks < n) :
    (onChanged (failingSeek n) t).result.1 =
      if n ≤ t.result.2.seeks then .error (.source .seek) else t.result.1 := by
  induction t using Search.result.induct with
  | case1 t r s hturn =>
    have hseeks : s.seeks = t.source.seeks + 1 := by
      have h := (rewound_turn t).seeks
      rwa [hturn] at h
    rw [result_of_done hturn]
    dsimp only
    by_cases hhit : t.source.seeks + 1 = n
    · obtain ⟨s', hfail⟩ := turn_failingSeek hhit
      rw [result_of_done hfail, if_pos (by omega)]
    · have hsame := turn_failingSeek_other hnone hhit
      rw [hturn] at hsame
      rw [result_of_done hsame, if_neg (by omega)]
  | case2 t v hturn ih =>
    have hrewound := rewound_turn t
    rw [hturn] at hrewound
    have hseeks : v.source.seeks = t.source.seeks + 1 := hrewound.seeks
    have hbeyond := seeks_le_result v
    rw [result_of_again hturn]
    by_cases hhit : t.source.seeks + 1 = n
    · obtain ⟨s', hfail⟩ := turn_failingSeek hhit
      rw [result_of_done hfail, if_pos (by omega)]
    · have hsame := turn_failingSeek_other hnone hhit
      rw [hturn] at hsame
      rw [result_of_again hsame]
      apply ih
      · exact hrewound.failSeek.trans hnone
      · omega

end Seek

/-! ## Reads that fail -/

section Read
variable {t : Search} {place : Nat}

/-- The first pass of a search meets a fault in the content. -/
theorem result_failingRead (h : Steady t.source) (hsize : ¬t.size < minBlockSize)
    (hplace : place ≤ t.source.content.size) :
    (onChanged (failingRead place) t).result.1 = .error (.source .read) := by
  have hfree : ¬(failingRead place t.source).failSeek =
      some ((failingRead place t.source).seeks + 1) := by
    simp [failingRead, h.failSeek]
  let s : Source :=
    { failingRead place t.source with
      seeks := t.source.seeks + 1, position := 0, script := t.source.scripts t.source.seeks }
  have hrewind : (failingRead place t.source).rewind = (.ok (), s) := by
    rw [Source.rewind, if_neg hfree]
    rfl
  have hreach : Reaching place s := ⟨rfl, Nat.zero_le place, hplace, h.scripts _⟩
  obtain ⟨s', hfold⟩ := hreach.fold (Pass.step t.size) t.pass.rewound
  have hturn : (onChanged (failingRead place) t).turn = .done (.error (.source .read)) s' := by
    simp only [Search.turn, onChanged, hrewind, if_neg hsize, hfold]
  rw [result_of_done hturn]

lemma turn_failingRead_behind (hnone : t.source.failRead = none)
    (hplace : t.source.content.size < place) :
    (onChanged (failingRead place) t).turn = changedTurn (failingRead place) t.turn := by
  apply turn_onChanged (unnoticed_failingRead place)
  · by_cases hhit : t.source.failSeek = some (t.source.seeks + 1)
    · have hhit' : (failingRead place t.source).failSeek =
          some ((failingRead place t.source).seeks + 1) := hhit
      rw [Source.rewind, Source.rewind, if_pos hhit, if_pos hhit']
      rfl
    · have hmiss : ¬(failingRead place t.source).failSeek =
          some ((failingRead place t.source).seeks + 1) := hhit
      rw [Source.rewind, Source.rewind, if_neg hhit, if_neg hmiss]
      rfl
  · intro hok
    unfold Source.rewind at hok ⊢
    split_ifs at hok ⊢
    exact ⟨hnone, Nat.zero_le _, hplace⟩

/-- A fault behind the content is not noticed. -/
theorem result_failingRead_behind (hnone : t.source.failRead = none)
    (hplace : t.source.content.size < place) :
    (onChanged (failingRead place) t).result.1 = t.result.1 := by
  induction t using Search.result.induct with
  | case1 t r s hturn =>
    have hsame := turn_failingRead_behind hnone hplace
    rw [hturn] at hsame
    rw [result_of_done hturn, result_of_done hsame]
  | case2 t v hturn ih =>
    have hsame := turn_failingRead_behind hnone hplace
    have hrewound := rewound_turn t
    rw [hturn] at hsame hrewound
    rw [result_of_again hturn, result_of_again hsame]
    apply ih
    · exact hrewound.failRead.trans hnone
    · exact hrewound.content ▸ hplace

end Read

/-! ## Passes and seeks -/

/-- The passes that a search makes as long as no seek fails: its turns, but for one at a block size
that is too small for a pass. -/
def passes (t : Search) : Nat :=
  match _h : t.turn with
  | .done _ _ => if t.size < minBlockSize then 0 else 1
  | .again next => passes next + 1
termination_by t.size.toNat
decreasing_by
  obtain ⟨large, half⟩ := Search.turn_again _h
  have : 3 ≤ t.size.toNat := by
    simpa [minBlockSize, UInt64.lt_iff_toNat_lt] using large
  rw [half, UInt64.toNat_div]
  exact Nat.div_lt_self (by omega) (by decide)

section Passes
variable {t u v : Search} {data : List UInt8} {k : Nat}

lemma passes_of_done {r : Except Failure Digest} {s : Source} (h : t.turn = .done r s) :
    passes t = if t.size < minBlockSize then 0 else 1 := by
  rw [passes]
  split
  · rfl
  · next hturn => simp [h] at hturn

lemma passes_of_again (h : t.turn = .again v) : passes t = passes v + 1 := by
  rw [passes]
  split
  · next hturn => simp [h] at hturn
  · next hturn =>
    rw [h] at hturn
    cases hturn
    rfl

/-- A search makes a pass at each block size down to the one it finds, and a seek before each pass;
when it finds none there is one more seek. -/
lemma passes_between (h : Between u data) (hsize : u.size.toNat = blockSize k) :
    passes u = (if Enough data 0 then k - found data k else k) + 1 ∧
      u.result.2.seeks = u.source.seeks + passes u + if Enough data 0 then 0 else 1 := by
  induction k generalizing u with
  | zero =>
    have hlarge := large_of_blockSize hsize
    by_cases henough : Enough data 0
    · obtain ⟨s, hturn⟩ := h.turn_enough hsize henough
      rw [passes_of_done hturn, seeks_of_done hturn, if_neg hlarge, if_pos henough, if_pos henough]
      omega
    · obtain ⟨v, hturn, hv, hhalf⟩ := h.turn_few hsize henough
      have hsmall : v.size < minBlockSize := by
        rw [hhalf, half_least hsize]
        decide
      obtain ⟨s, hend⟩ := hv.turn_exhausted hsmall
      rw [passes_of_again hturn, passes_of_done hend, result_of_again hturn, seeks_of_done hend,
        seeks_of_again hturn, if_pos hsmall, if_neg henough, if_neg henough]
      omega
  | succ k ih =>
    by_cases henough : Enough data (k + 1)
    · have hleast := henough.of_le (Nat.zero_le (k + 1))
      obtain ⟨s, hturn⟩ := h.turn_enough hsize henough
      rw [passes_of_done hturn, seeks_of_done hturn, if_neg (large_of_blockSize hsize),
        if_pos hleast, if_pos hleast, found, Nat.findGreatest_eq henough]
      omega
    · obtain ⟨v, hturn, hv, hhalf⟩ := h.turn_few hsize henough
      obtain ⟨hpasses, hseeks⟩ := ih hv (by rw [hhalf]; exact toNat_half hsize)
      have hfound : found data (k + 1) = found data k := Nat.findGreatest_of_not henough
      have hle : found data k ≤ k := Nat.findGreatest_le k
      rw [passes_of_again hturn, result_of_again hturn, hseeks, seeks_of_again hturn, hpasses,
        hfound]
      constructor
      · split_ifs <;> omega
      · omega

end Passes

/-! ## Digests -/

/-- The search in a source that is said to hold `len` bytes. -/
def searchIn (s : Source) (len : UInt64) : Search := ⟨initialBlockSize len, .fresh, s⟩

section Digests
variable {s : Source} {len : UInt64} {K n place : Nat}

lemma run_of_long (s : Source) (hlong : ¬len < minLength) :
    run s len = ((searchIn s len).result.1.map some, (searchIn s len).result.2) := by
  rw [run, if_neg hlong, searchIn]
  generalize Search.result ⟨initialBlockSize len, .fresh, s⟩ = r
  rcases r with ⟨_ | _, _⟩ <;> rfl

lemma ofSource_failingSeek (h : Steady s) (hlong : ¬len < minLength) (hn : s.seeks < n) :
    ofSource (failingSeek n s) len =
      if n ≤ (run s len).2.seeks then .error (.source .seek) else ofSource s len := by
  have hresult := result_failingSeek (t := searchIn s len) h.failSeek hn
  change (searchIn (failingSeek n s) len).result.1 = _ at hresult
  rw [ofSource, ofSource, run_of_long _ hlong, run_of_long _ hlong, hresult]
  split_ifs <;> rfl

lemma ofSource_failingRead (h : Steady s) (hlong : ¬len < minLength)
    (hplace : place ≤ s.content.size) :
    ofSource (failingRead place s) len = .error (.source .read) := by
  obtain ⟨K, -, hsize, -⟩ := initialBlockSize_spec len
  have hresult := result_failingRead (t := searchIn s len) h (large_of_blockSize hsize) hplace
  change (searchIn (failingRead place s) len).result.1 = _ at hresult
  rw [ofSource, run_of_long _ hlong, hresult]
  rfl

lemma ofSource_failingRead_behind (h : Steady s) (hlong : ¬len < minLength)
    (hplace : s.content.size < place) :
    ofSource (failingRead place s) len = ofSource s len := by
  have hresult := result_failingRead_behind (t := searchIn s len) h.failRead hplace
  change (searchIn (failingRead place s) len).result.1 = _ at hresult
  rw [ofSource, ofSource, run_of_long _ hlong, run_of_long _ hlong, hresult]

/-- A search in a steady source finds a digest or runs out of block sizes. It makes as many seeks as
passes, and in the second case one more. -/
lemma seeks_of_long (h : Steady s) (hlong : ¬len < minLength) (hK : K ≤ 57)
    (hsize : (initialBlockSize len).toNat = blockSize K) :
    (∃ d, ∃ k ≤ K, ofSource s len = .ok (some d) ∧ d.blockSize.toNat = blockSize k ∧
        passes (searchIn s len) = K - k + 1 ∧
        (run s len).2.seeks = s.seeks + passes (searchIn s len)) ∨
      ofSource s len = .error (.blockSizeTooSmall 1 3) ∧ passes (searchIn s len) = K + 1 ∧
        (run s len).2.seeks = s.seeks + (passes (searchIn s len) + 1) := by
  have hbetween : Between (searchIn s len) s.content.toList := ⟨rfl, h, rfl⟩
  obtain ⟨hpasses, hseeks⟩ := passes_between hbetween hsize
  have hresult := ofSource_of_long h hlong hsize
  rw [run_of_long _ hlong]
  by_cases hleast : Enough s.content.toList 0
  · left
    rw [if_pos hleast] at hresult hpasses hseeks
    have hfound : found s.content.toList K ≤ K := Nat.findGreatest_le K
    exact ⟨_, found s.content.toList K, hfound, hresult,
      toNat_blockSize_digestAt (hfound.trans hK), hpasses, hseeks⟩
  · right
    rw [if_neg hleast] at hresult hpasses hseeks
    exact ⟨hresult, hpasses, hseeks⟩

end Digests

/-- No digest is made of partial data. A source that is said to be short is not touched. Otherwise
let `S` be the number of seeks without faults, one for each pass and one more when no block size is
found. The failure of one of these seeks, or of the reads from a place in the content or at its end,
is the result; that of a later seek, or of reads behind the end, leaves the result as it is. -/
theorem faults_leave_no_digest (s : Source) (h : Steady s) (len : UInt64) :
    (len < minLength → ∀ t, run t len = (.ok none, t)) ∧
      (minLength ≤ len → ∃ K S, (initialBlockSize len).toNat = blockSize K ∧
        (run s len).2.seeks = s.seeks + S ∧
        ((∃ d, ∃ k ≤ K, ofSource s len = .ok (some d) ∧ d.blockSize.toNat = blockSize k ∧
            passes (searchIn s len) = K - k + 1 ∧ S = passes (searchIn s len)) ∨
          ofSource s len = .error (.blockSizeTooSmall 1 3) ∧
            passes (searchIn s len) = K + 1 ∧ S = passes (searchIn s len) + 1) ∧
        (∀ n, 1 ≤ n → n ≤ S →
          ofSource (failingSeek (s.seeks + n) s) len = .error (.source .seek)) ∧
        (∀ n, S < n → ofSource (failingSeek (s.seeks + n) s) len = ofSource s len) ∧
        (∀ p ≤ s.content.size, ofSource (failingRead p s) len = .error (.source .read)) ∧
        ∀ p, s.content.size < p → ofSource (failingRead p s) len = ofSource s len) := by
  constructor
  · intro hshort t
    rw [run, if_pos hshort]
  intro hmin
  have hlong := UInt64.not_lt.mpr hmin
  obtain ⟨K, hK, hsize, -⟩ := initialBlockSize_spec len
  obtain ⟨S, hS, hcount⟩ : ∃ S, (run s len).2.seeks = s.seeks + S ∧
      ((∃ d, ∃ k ≤ K, ofSource s len = .ok (some d) ∧ d.blockSize.toNat = blockSize k ∧
          passes (searchIn s len) = K - k + 1 ∧ S = passes (searchIn s len)) ∨
        ofSource s len = .error (.blockSizeTooSmall 1 3) ∧
          passes (searchIn s len) = K + 1 ∧ S = passes (searchIn s len) + 1) := by
    obtain ⟨d, k, hk, hd, hblock, hpasses, hseeks⟩ | ⟨hnone, hpasses, hseeks⟩ :=
      seeks_of_long h hlong hK hsize
    · exact ⟨_, hseeks, .inl ⟨d, k, hk, hd, hblock, hpasses, rfl⟩⟩
    · exact ⟨_, hseeks, .inr ⟨hnone, hpasses, rfl⟩⟩
  refine ⟨K, S, hsize, hS, hcount, ?_, ?_, ?_, ?_⟩
  · intro n hn hnS
    rw [ofSource_failingSeek h hlong (by omega), hS, if_pos (by omega)]
  · intro n hn
    rw [ofSource_failingSeek h hlong (by omega), hS, if_neg (by omega)]
  · intro p hp
    exact ofSource_failingRead h hlong hp
  · intro p hp
    exact ofSource_failingRead_behind h hlong hp

/-- Three bytes that are said to be many more, with interruptions. -/
def brief : Source :=
  { Source.ofBytes #[1, 2, 3] with
    script := [.interrupt]
    scripts := fun n => [.interrupt, .give 1, .interrupt, .give (n + 1)] }

lemma steady_brief : Steady brief :=
  ⟨rfl, rfl, by decide, fun n => by simp [brief]⟩

/-- The search in these bytes makes six passes and then a seventh seek, which may fail too. -/
theorem faults_leave_no_digest_brief :
    Steady brief ∧ minLength ≤ 4096 ∧
      ofSource brief 4096 = .error (.blockSizeTooSmall 1 3) ∧
      ofSource (failingSeek 1 brief) 4096 = .error (.source .seek) ∧
      ofSource (failingSeek 7 brief) 4096 = .error (.source .seek) ∧
      ofSource (failingSeek 8 brief) 4096 = .error (.blockSizeTooSmall 1 3) ∧
      ofSource (failingRead 3 brief) 4096 = .error (.source .read) ∧
      ofSource (failingRead 4 brief) 4096 = .error (.blockSizeTooSmall 1 3) := by
  have hmin : minLength ≤ 4096 := by decide
  have hinitial : (initialBlockSize 4096).toNat = blockSize 5 := by decide +kernel
  have hfew : ¬Enough brief.content.toList 0 := by decide +kernel
  have hnone : ofSource brief 4096 = .error (.blockSizeTooSmall 1 3) := by
    rw [ofSource_of_long steady_brief (UInt64.not_lt.mpr hmin) hinitial, if_neg hfew]
  obtain ⟨-, hlong⟩ := faults_leave_no_digest brief steady_brief 4096
  obtain ⟨K, S, hK, -, hcount, hseek, hlater, hread, hbehind⟩ := hlong hmin
  have hS : S = 7 := by
    rcases hcount with ⟨d, k, -, hd, -⟩ | ⟨-, hpasses, hS⟩
    · rw [hnone] at hd
      cases hd
    · have hfive : K = 5 := by
        rw [hinitial, blockSize, blockSize] at hK
        exact (Nat.pow_right_injective (Nat.le_refl 2) (Nat.eq_of_mul_eq_mul_left three_pos hK)).symm
      omega
  subst hS
  exact ⟨steady_brief, hmin, hnone, hseek 1 (by decide) (by decide),
    hseek 7 (by decide) (by decide), (hlater 8 (by decide)).trans hnone, hread 3 (by decide),
    (hbehind 4 (by decide)).trans hnone⟩

end Hallmark.Proofs
