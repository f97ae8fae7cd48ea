import Hallmark.Proofs.SizedBlocks
import Hallmark.Proofs.Utf16Texts

/-!
# The spans of version strings

A walk over blocks goes on behind the length that it reads, so the blocks that it finds stand one
behind the other, whatever the lengths are. The strings of all tables stand in spans of the resource
that are apart, and a string takes at least ten octets: its header, the end of its name and a unit of
its value.
-/

namespace Hallmark.Proofs
open Pe Pe.VersionStrings

/-! ## Walks over blocks -/

/-- A run of octets, from its first place to the place behind it. -/
structure Span where
  start : Nat
  stop : Nat
  deriving Repr, DecidableEq

def Span.cut (s : Span) (data : Bytes) : Bytes := data.extract s.start s.stop

/-- The spans stand one behind the other. -/
def InOrder (spans : List Span) : Prop := spans.Pairwise fun s t => s.stop ≤ t.start

/-- Where a walk over blocks goes on behind the length that it reads at a place. -/
def nextPlace? (data : Bytes) (offset : Nat) : Option Nat :=
  (Bytes.u16? data offset).map fun length =>
    if length = 0 then offset + 2 else offset + length.toNat

/-- The block whose length stands at a place, if it is not zero. -/
def blockSpan? (data : Bytes) (offset : Nat) : Option Span :=
  (Bytes.u16? data offset).bind fun length =>
    if length = 0 then none else some ⟨offset, min (offset + length.toNat) data.size⟩

section Walks
variable {data : Bytes} {offset next : Nat} {s : Span}

lemma toNat_pos {length : UInt16} (h : length ≠ 0) : 0 < length.toNat :=
  Nat.pos_of_ne_zero fun hzero => h (UInt16.toNat_inj.mp hzero)

lemma nextPlace?_advances (h : nextPlace? data offset = some next) :
    offset < next ∧ offset + 2 ≤ data.size := by
  obtain ⟨length, hlength, rfl⟩ := Option.map_eq_some_iff.mp h
  refine ⟨?_, inside_of_u16? hlength⟩
  split_ifs with hzero
  · omega
  · have hpos := toNat_pos hzero
    omega

/-- The places where a walk reads a length. -/
def places (data : Bytes) (offset : Nat) : List Nat :=
  match _h : nextPlace? data offset with
  | none => []
  | some next => offset :: places data next
termination_by data.size - offset
decreasing_by
  obtain ⟨hless, hin⟩ := nextPlace?_advances _h
  omega

/-- The blocks that a walk finds. -/
def blockSpans (data : Bytes) (offset : Nat) : List Span :=
  (places data offset).filterMap (blockSpan? data)

lemma blockSpan?_some (h : blockSpan? data offset = some s) :
    s.start = offset ∧ offset < s.stop ∧ s.stop ≤ data.size ∧
      ∃ next, nextPlace? data offset = some next ∧ s.stop ≤ next := by
  obtain ⟨length, hlength, hspan⟩ := Option.bind_eq_some_iff.mp h
  split_ifs at hspan with hzero
  obtain rfl := Option.some.inj hspan
  have hin := inside_of_u16? hlength
  have hpos := toNat_pos hzero
  refine ⟨rfl, ?_, Nat.min_le_right _ _, offset + length.toNat, ?_, Nat.min_le_left _ _⟩
  · dsimp only
    omega
  · rw [nextPlace?, hlength, Option.map_some, if_neg hzero]

lemma le_of_mem_places {p : Nat} (h : p ∈ places data offset) : offset ≤ p ∧ p + 2 ≤ data.size := by
  fun_induction places data offset with
  | case1 => simp at h
  | case2 offset next hnext ih =>
    obtain ⟨hless, hin⟩ := nextPlace?_advances hnext
    rcases List.mem_cons.mp h with rfl | hlater
    · exact ⟨Nat.le_refl _, hin⟩
    · obtain ⟨hle, hp⟩ := ih hlater
      exact ⟨by omega, hp⟩

/-- A walk never goes back to what a length in front of it has counted. -/
lemma places_advance (data : Bytes) (offset : Nat) :
    (places data offset).Pairwise fun p q => ∃ next, nextPlace? data p = some next ∧ next ≤ q := by
  fun_induction places data offset with
  | case1 => exact .nil
  | case2 offset next hnext ih =>
    exact List.pairwise_cons.mpr ⟨fun q hq => ⟨next, hnext, (le_of_mem_places hq).1⟩, ih⟩

lemma places_increasing (data : Bytes) (offset : Nat) : (places data offset).Pairwise (· < ·) := by
  apply (places_advance data offset).imp
  rintro p q ⟨next, hnext, hle⟩
  exact (nextPlace?_advances hnext).1.trans_le hle

lemma blockSpans_inOrder (data : Bytes) (offset : Nat) : InOrder (blockSpans data offset) := by
  refine List.pairwise_filterMap.mpr ((places_advance data offset).imp ?_)
  rintro p q ⟨next, hnext, hle⟩ s hs t ht
  obtain ⟨-, -, -, next', hnext', hstop⟩ := blockSpan?_some hs
  obtain ⟨hstart, -⟩ := blockSpan?_some ht
  obtain rfl : next = next' := Option.some.inj (hnext.symm.trans hnext')
  omega

lemma blockSpans_inside (h : s ∈ blockSpans data offset) :
    offset ≤ s.start ∧ s.start < s.stop ∧ s.stop ≤ data.size := by
  obtain ⟨p, hp, hspan⟩ := List.mem_filterMap.mp h
  obtain ⟨rfl, hless, hin, -⟩ := blockSpan?_some hspan
  exact ⟨(le_of_mem_places hp).1, hless, hin⟩

lemma extract_min (data : Bytes) (start stop : Nat) :
    data.extract start stop = data.extract start (min stop data.size) := by
  rw [Array.extract_eq_extract_right]
  omega

lemma blocks_eq_cut (data : Bytes) (offset : Nat) :
    blocks data offset = (blockSpans data offset).map fun s => s.cut data := by
  unfold blockSpans
  fun_induction places data offset with
  | case1 offset hnone => exact blocks_of_none (Option.map_eq_none_iff.mp hnone)
  | case2 offset next hnext ih =>
    obtain ⟨length, hlength, rfl⟩ := Option.map_eq_some_iff.mp hnext
    rw [blocks_of_some hlength, List.filterMap_cons, blockSpan?, hlength, Option.bind_some]
    split_ifs at ih ⊢ with hzero
    · exact ih
    · rw [List.map_cons, ih, extract_min data offset]
      rfl

end Walks

/-! ## Entries -/

/-- The text of all units of some octets. -/
def unitText (bs : Bytes) : String := String.ofList (Utf16.decode (Utf16.units bs))

/-- The entry is decoded from a span of the data: its name from units behind a header of six octets,
and its value from units behind the name, the end of the name and a gap. -/
structure SpelledIn (data : Bytes) (s : Span) (e : VersionEntry) : Prop where
  inside : s.stop ≤ data.size
  long : s.start + 10 ≤ s.stop
  parts : ∃ name value : Span,
    name.start = s.start + 6 ∧ name.start ≤ name.stop ∧
      value.start = s.start + align4 (name.stop + 2 - s.start) ∧ value.start < value.stop ∧
      value.stop ≤ s.stop ∧ e.name = unitText (name.cut data) ∧ e.value = unitText (value.cut data)

/-- The entries are spelled in spans that stand one behind the other in `s`. -/
def SpelledApart (data : Bytes) (s : Span) (es : List VersionEntry) : Prop :=
  ∃ spans, List.Forall₂ (SpelledIn data) spans es ∧ InOrder spans ∧
    ∀ t ∈ spans, s.start ≤ t.start ∧ t.stop ≤ s.stop

section Entries
variable {data block : Bytes} {s t : Span} {e : VersionEntry} {es : List VersionEntry}

lemma from?_some {rest : Bytes} {offset : Nat} (h : Bytes.from? data offset = some rest) :
    offset ≤ data.size ∧ rest = data.extract offset data.size := by
  rw [Bytes.from?] at h
  split_ifs at h with hin
  exact ⟨hin, (Option.some.inj h).symm⟩

/-- The text before a zero is decoded from the octets that it takes up. -/
lemma unitText_beforeNul (data : Bytes) (offset : Nat) :
    unitText (data.extract offset
        (offset + 2 * (Utf16.unitsBeforeNul (data.extract offset data.size)).length)) =
      Utf16.textBeforeNul (data.extract offset data.size) := by
  have hunits := units_beforeNul (data.extract offset data.size)
  rw [Array.extract_extract, Nat.add_zero] at hunits
  rw [unitText, extract_min data offset (offset + _), hunits, Utf16.textBeforeNul]

/-- What is read of a string is decoded from the block of the string. -/
lemma spelledIn_string (h : entry? block = some e) : SpelledIn block ⟨0, block.size⟩ e := by
  obtain ⟨kind, -, h⟩ := Option.bind_eq_some_iff.mp h
  split_ifs at h
  · cases h
  obtain ⟨key, hkey, h⟩ := Option.bind_eq_some_iff.mp h
  obtain ⟨value, hvalue, h⟩ := Option.bind_eq_some_iff.mp h
  dsimp only at h
  split_ifs at h with hempty
  · cases h
  obtain rfl := Option.some.inj h
  obtain ⟨-, hkey⟩ := from?_some hkey
  generalize hplace : align4 (blockHeader + 2 * (Utf16.unitsBeforeNul key).length + 2) = place
    at hvalue
  obtain ⟨hstart, hvalue⟩ := from?_some hvalue
  have hname := unitText_beforeNul block blockHeader
  rw [← hkey] at hname
  have htext := unitText_beforeNul block place
  rw [← hvalue] at htext
  have hunits := size_unitsBeforeNul value
  have hsize : value.size = block.size - place := by rw [hvalue, Array.size_extract, Nat.min_self]
  have hpos : 0 < (Utf16.unitsBeforeNul value).length := by
    rw [List.length_pos_iff]
    intro hnil
    rw [Utf16.textBeforeNul, hnil] at hempty
    exact hempty rfl
  have height : 8 ≤ place := by
    rw [← hplace, align4, blockHeader]
    omega
  refine ⟨Nat.le_refl _, ?_, ⟨blockHeader, blockHeader + 2 * (Utf16.unitsBeforeNul key).length⟩,
    ⟨place, place + 2 * (Utf16.unitsBeforeNul value).length⟩, rfl, Nat.le_add_right _ _, ?_, ?_, ?_,
    hname.symm, htext.symm⟩
  all_goals simp only [Nat.zero_add, Nat.sub_zero]
  · omega
  · exact hplace.symm
  · omega
  · omega

/-- Ten octets are enough for an entry. -/
example : entry? #[10, 0, 1, 0, 1, 0, 0, 0, 65, 0] = some ⟨"", "A"⟩ := by decide +kernel

/-- The span as it stands in data that has `n` octets in front. -/
def Span.shift (n : Nat) (s : Span) : Span := ⟨n + s.start, n + s.stop⟩

lemma cut_cut (h : t.stop ≤ (s.cut data).size) :
    t.cut (s.cut data) = (t.shift s.start).cut data := by
  rw [Span.cut, Array.size_extract] at h
  rw [Span.cut, Span.cut, Array.extract_extract]
  refine Array.extract_eq_extract_right.mpr ?_
  dsimp only [Span.shift]
  omega

lemma SpelledIn.shift (h : SpelledIn (s.cut data) t e) : SpelledIn data (t.shift s.start) e := by
  obtain ⟨hin, hlong, name, value, hname, hnameStop, hvalue, hvalueStop, hstop, htexts⟩ := h
  have hgap := le_align4 (name.stop + 2 - t.start)
  have hnameCut : name.cut (s.cut data) = (name.shift s.start).cut data :=
    cut_cut (by omega)
  have hvalueCut : value.cut (s.cut data) = (value.shift s.start).cut data :=
    cut_cut (by omega)
  have hplace : s.start + name.stop + 2 - (s.start + t.start) = name.stop + 2 - t.start := by omega
  rw [Span.cut, Array.size_extract] at hin
  rw [hnameCut, hvalueCut] at htexts
  refine ⟨?_, ?_, name.shift s.start, value.shift s.start, ?_, ?_, ?_, ?_, ?_, htexts⟩
  all_goals dsimp only [Span.shift]
  · omega
  · omega
  · omega
  · omega
  · rw [hplace]
    omega
  · omega
  · omega

namespace SpelledApart

lemma nil : SpelledApart data s [] := ⟨[], .nil, .nil, by simp⟩

lemma single (h : SpelledIn data s e) : SpelledApart data s [e] :=
  ⟨[s], .cons h .nil, List.pairwise_singleton _ _, by simp⟩

lemma mono (h : SpelledApart data t es) (hstart : s.start ≤ t.start) (hstop : t.stop ≤ s.stop) :
    SpelledApart data s es := by
  obtain ⟨spans, hspans, horder, hin⟩ := h
  exact ⟨spans, hspans, horder, fun u hu =>
    ⟨hstart.trans (hin u hu).1, (hin u hu).2.trans hstop⟩⟩

lemma append {es' : List VersionEntry} {a m b : Nat} (h : SpelledApart data ⟨a, m⟩ es)
    (h' : SpelledApart data ⟨m, b⟩ es') (ham : a ≤ m) (hmb : m ≤ b) :
    SpelledApart data ⟨a, b⟩ (es ++ es') := by
  obtain ⟨spans, hspans, horder, hin⟩ := h
  obtain ⟨spans', hspans', horder', hin'⟩ := h'
  refine ⟨spans ++ spans', List.rel_append hspans hspans', ?_, ?_⟩
  · refine List.pairwise_append.mpr ⟨horder, horder', fun t ht u hu => ?_⟩
    exact (hin t ht).2.trans (hin' u hu).1
  · intro t ht
    rcases List.mem_append.mp ht with hleft | hright
    · exact ⟨(hin t hleft).1, (hin t hleft).2.trans hmb⟩
    · exact ⟨ham.trans (hin' t hright).1, (hin' t hright).2⟩

/-- What is spelled in spans that are in order is spelled in all of them together. -/
lemma flatMap {f : Span → List VersionEntry} {spans : List Span} {a b : Nat} (horder : InOrder spans)
    (hin : ∀ t ∈ spans, a ≤ t.start ∧ t.start < t.stop ∧ t.stop ≤ b)
    (h : ∀ t ∈ spans, SpelledApart data t (f t)) : SpelledApart data ⟨a, b⟩ (spans.flatMap f) := by
  induction spans generalizing a with
  | nil => exact nil
  | cons t spans ih =>
    obtain ⟨hfirst, hrest⟩ := List.pairwise_cons.mp horder
    obtain ⟨hhead, htail⟩ := List.forall_mem_cons.mp hin
    have hbehind : SpelledApart data ⟨t.stop, b⟩ (spans.flatMap f) :=
      ih hrest (fun u hu => ⟨hfirst u hu, (htail u hu).2⟩)
        fun u hu => h u (List.mem_cons_of_mem t hu)
    have hfront : SpelledApart data ⟨a, t.stop⟩ (f t) :=
      (h t List.mem_cons_self).mono hhead.1 (Nat.le_refl _)
    rw [List.flatMap_cons]
    exact hfront.append hbehind (by omega) hhead.2.2

lemma shift (h : SpelledApart (s.cut data) t es) : SpelledApart data (t.shift s.start) es := by
  obtain ⟨spans, hspans, horder, hin⟩ := h
  refine ⟨spans.map (Span.shift s.start), ?_, ?_, ?_⟩
  · exact List.forall₂_map_left_iff.mpr (hspans.imp fun _ _ => SpelledIn.shift)
  · refine List.pairwise_map.mpr (horder.imp fun hle => ?_)
    exact Nat.add_le_add_left hle s.start
  · refine List.forall_mem_map.mpr fun u hu => ?_
    exact ⟨Nat.add_le_add_left (hin u hu).1 _, Nat.add_le_add_left (hin u hu).2 _⟩

/-- Ten octets for each entry are there. -/
lemma length_le {a b : Nat} (h : SpelledApart data ⟨a, b⟩ es) (hab : a ≤ b) :
    a + 10 * es.length ≤ b := by
  obtain ⟨spans, hspans, horder, hin⟩ := h
  induction hspans generalizing a with
  | nil => exact hab
  | @cons t e spans es ht _ ih =>
    obtain ⟨hfirst, hrest⟩ := List.pairwise_cons.mp horder
    obtain ⟨hhead, htail⟩ := List.forall_mem_cons.mp hin
    have hlong := ht.long
    have hmore := ih hhead.2 hrest fun u hu => ⟨hfirst u hu, (htail u hu).2⟩
    rw [List.length_cons]
    dsimp only at hhead hmore
    omega

/-- What is spelled in the octets of a span is spelled in the span. -/
lemma of_cut (hstop : s.stop ≤ data.size)
    (h : SpelledApart (s.cut data) ⟨0, (s.cut data).size⟩ es) : SpelledApart data s es := by
  have hsize : (s.cut data).size = s.stop - s.start := by
    rw [Span.cut, Array.size_extract, Nat.min_eq_left hstop]
  rw [hsize] at h
  rcases Nat.le_total s.start s.stop with hle | hempty
  · refine h.shift.mono (Nat.le_add_right _ _) ?_
    dsimp only [Span.shift]
    omega
  · have hlength := h.length_le (Nat.zero_le _)
    obtain rfl : es = [] := List.eq_nil_of_length_eq_zero (by omega)
    exact nil

end SpelledApart
end Entries

/-! ## Resources -/

section Resources
variable {data : Bytes} {offset : Nat}

/-- The strings that a walk finds are spelled behind the place where it starts. -/
lemma strings_spelledApart (data : Bytes) (offset : Nat) :
    SpelledApart data ⟨offset, data.size⟩ ((blocks data offset).filterMap entry?) := by
  rw [blocks_eq_cut, List.filterMap_map, List.filterMap_eq_flatMap_toList]
  refine SpelledApart.flatMap (blockSpans_inOrder data offset) (fun s hs => blockSpans_inside hs) ?_
  intro s hs
  rw [Function.comp_apply]
  cases hentry : entry? (s.cut data) with
  | none => exact .nil
  | some e => exact (SpelledApart.single (spelledIn_string hentry)).of_cut (blockSpans_inside hs).2.2

lemma tables_spelledApart (data : Bytes) : SpelledApart data ⟨0, data.size⟩ (ofTables data) := by
  rw [ofTables, blocks_eq_cut, List.flatMap_map]
  refine SpelledApart.flatMap (blockSpans_inOrder data 0) (fun s hs => blockSpans_inside hs) ?_
  intro s hs
  let strings : Span := ⟨tableHeader, (s.cut data).size⟩
  have hstrings : SpelledApart (s.cut data) strings
      ((blocks (strings.cut (s.cut data)) 0).filterMap entry?) :=
    (strings_spelledApart (strings.cut (s.cut data)) 0).of_cut (Nat.le_refl _)
  have hchildren : SpelledApart (s.cut data) ⟨0, (s.cut data).size⟩
      ((blocks (strings.cut (s.cut data)) 0).filterMap entry?) :=
    hstrings.mono (Nat.zero_le _) (Nat.le_refl _)
  exact hchildren.of_cut (blockSpans_inside hs).2.2

/-- Where the string tables of a resource stand. -/
def tablesSpan? (data : Bytes) : Option Span :=
  ((Bytes.find? data marker 0).map fun place =>
    let keyEnd := place + marker.size + 2
    if blockHeader ≤ place then
      let block := place - blockHeader
      let length := ((Bytes.u16? data block).getD 0).toNat
      ⟨block + align4 (keyEnd - block),
        if keyEnd - block < length then min (block + length) data.size else data.size⟩
    else ⟨align4 keyEnd, data.size⟩).filter fun s => s.start ≤ s.stop

lemma ofResource_eq (data : Bytes) :
    ofResource data = (tablesSpan? data).elim [] fun s => ofTables (s.cut data) := by
  have helim (s : Span) :
      ((some s).filter fun s => s.start ≤ s.stop).elim [] (fun s => ofTables (s.cut data)) =
        if s.start ≤ s.stop then ofTables (s.cut data) else [] := by
    rw [Option.filter_some]
    by_cases hordered : s.start ≤ s.stop <;> simp [hordered]
  unfold ofResource tablesSpan?
  cases Bytes.find? data marker 0 with
  | none => rfl
  | some place =>
    rw [Option.map_some, helim]
    by_cases hheader : blockHeader ≤ place
    · simp only [if_pos hheader]
      rfl
    · simp only [if_neg hheader]
      rfl

lemma tablesSpan?_some {s : Span} (h : tablesSpan? data = some s) :
    s.start ≤ s.stop ∧ s.stop ≤ data.size := by
  obtain ⟨hspan, hordered⟩ := Option.filter_eq_some_iff.mp h
  refine ⟨of_decide_eq_true hordered, ?_⟩
  obtain ⟨place, -, rfl⟩ := Option.map_eq_some_iff.mp hspan
  dsimp only
  split_ifs
  · exact Nat.min_le_right _ _
  all_goals exact Nat.le_refl _

lemma resource_spelledApart (data : Bytes) : SpelledApart data ⟨0, data.size⟩ (ofResource data) := by
  rw [ofResource_eq]
  cases hspan : tablesSpan? data with
  | none => exact .nil
  | some s =>
    obtain ⟨-, hstop⟩ := tablesSpan?_some hspan
    exact ((tables_spelledApart (s.cut data)).of_cut hstop).mono (Nat.zero_le _) hstop

end Resources
end Hallmark.Proofs
