import Hallmark.Proofs.VersionLayout

/-!
# Version strings are read back as they were laid out

Whatever tables a block holds and whichever paddings it counts, wherever it stands and whatever
follows it, its strings are read in order.
-/

namespace Hallmark.Proofs
open Pe Pe.VersionStrings

/-! ## Strings -/

section Strings
variable {s : VersionString} {found : Bytes}

lemma Ends.from? {data : Bytes} {offset : Nat} {rest : List UInt8} (h : Ends data offset rest) :
    Bytes.from? data offset = some rest.toArray := by
  have hsize := h.size_eq
  have hrest := h.extract rest.length
  rw [List.take_length, ← hsize] at hrest
  rw [Bytes.from?, if_pos (by omega), Option.some.injEq]
  exact Array.toList_inj.mp hrest

lemma wideText_append (s : String) (rest : List UInt8) :
    (wideText s ++ rest).toArray = Utf16.octets (Utf16.encode s ++ [0]) ++ rest.toArray := by
  rw [wideText, ← List.append_toArray]

lemma unitsBeforeNul_wideText {s : String} (h : '\x00' ∉ s.toList) (rest : List UInt8) :
    Utf16.unitsBeforeNul (wideText s ++ rest).toArray = Utf16.encode s := by
  rw [wideText_append]
  exact unitsBeforeNul_terminated (zero_not_mem_encode h) _

/-- The value is found behind the key, and the zeros behind it do not matter. -/
lemma entry?_of_found (hs : s.Writable) (h : s.block.FoundAs found) : entry? found = s.told? := by
  obtain ⟨n, -, hfound⟩ := h
  have hwhole : Ends found 0 (littleOctets 2 s.block.length ++ (littleOctets 2 s.valueLength.toNat ++
      (littleOctets 2 s.kind.toNat ++ (wideText s.key ++
        (zeros (gap (6 + (wideText s.key).length)) ++ (wideText s.value ++ zeros n)))))) := by
    refine ⟨[], ?_, rfl⟩
    rw [hfound]
    simp only [SizedBlock.core, VersionString.block, VersionString.content, typeWords,
      VersionString.keyOctets, List.append_assoc, List.nil_append]
  have hkind : Bytes.u16? found 4 = some s.kind := by
    have hplaced : Placed found 4 (littleOctets 2 s.kind.toNat) := hwhole.right.right.left
    rw [hplaced.u16? s.kind.toNat_lt, UInt16.ofNat_toNat]
  have hkey : Ends found 6 (wideText s.key ++
      (zeros (gap (6 + (wideText s.key).length)) ++ (wideText s.value ++ zeros n))) :=
    hwhole.right.right.right
  have hvalue := hkey.right.right
  have hplace : align4 (6 + 2 * (Utf16.encode s.key).length + 2) =
      6 + (wideText s.key).length + (zeros (gap (6 + (wideText s.key).length))).length := by
    rw [length_zeros, length_wideText]
    unfold gap align4
    omega
  rw [← hplace] at hvalue
  have htext : Utf16.textBeforeNul (wideText s.value ++ zeros n).toArray = s.value := by
    rw [Utf16.textBeforeNul, unitsBeforeNul_wideText hs.value, decode_encode, String.ofList_toList]
  have hname : String.ofList (Utf16.decode (Utf16.encode s.key)) = s.key := by
    rw [decode_encode, String.ofList_toList]
  by_cases hone : s.kind = textKind
  · by_cases hempty : s.value = ""
    · have htold : s.told? = none := if_neg fun h => h.2 hempty
      rw [hempty] at htext
      simp [ entry?, hkind, hone, blockHeader, hkey.from?, unitsBeforeNul_wideText hs.key,
        hvalue.from?, htext, hempty, htold]
    · have htold : s.told? = some ⟨s.key, s.value⟩ := if_pos ⟨hone, hempty⟩
      simp [ entry?, hkind, hone, blockHeader, hkey.from?, unitsBeforeNul_wideText hs.key,
        hvalue.from?, htext, hempty, hname, htold]
  · have htold : s.told? = none := if_neg fun h => hone h.1
    simp [ entry?, hkind, hone, htold]

end Strings

/-! ## Tables -/

section Tables

lemma map_found {α β : Type} {block : α → SizedBlock} {read : Bytes → β} {told : α → β}
    {items : List α} {found : List Bytes}
    (hread : ∀ a ∈ items, ∀ b, (block a).FoundAs b → read b = told a)
    (h : List.Forall₂ SizedBlock.FoundAs (items.map block) found) :
    found.map read = items.map told := by
  induction items generalizing found with
  | nil =>
    cases h
    rfl
  | cons a items ih =>
    obtain ⟨b, bs, hb, hbs, rfl⟩ := List.forall₂_cons_left_iff.mp h
    have hrest := ih (fun c hc => hread c (List.mem_cons_of_mem a hc)) hbs
    rw [List.map_cons, List.map_cons, hread a List.mem_cons_self b hb, hrest]

/-- The blocks that stand behind the header of a block are found there, whatever their block has
lost of its zeros. -/
lemma blocks_children {block : Bytes} {length : Nat} {header : List UInt8} {cs : List SizedBlock}
    (hcs : ∀ c ∈ cs, c.Writable) {n : Nat} (hn : n = 0 ∨ n = lastPadding cs)
    (h : block.toList = littleOctets 2 length ++ (header ++ joined cs) ++ zeros n) :
    List.Forall₂ SizedBlock.FoundAs cs
      (blocks (block.extract (2 + header.length) block.size) 0) := by
  have hwhole : Ends block 0 (littleOctets 2 length ++ (header ++ (joined cs ++ zeros n))) := by
    refine ⟨[], ?_, rfl⟩
    rw [h]
    simp only [List.append_assoc, List.nil_append]
  have hchildren : Ends block (2 + header.length) (joined cs ++ zeros n) := by
    have hright := hwhole.right.right
    rwa [length_littleOctets, Nat.zero_add] at hright
  refine blocks_joined hcs hn.symm ⟨[], ?_, rfl⟩
  have hextract := hchildren.extract (joined cs ++ zeros n).length
  rwa [List.take_length, ← hchildren.size_eq] at hextract

lemma strings_of_found {t : StringTable} (ht : t.Writable) {block : Bytes}
    (h : t.block.FoundAs block) :
    (blocks (block.extract tableHeader block.size) 0).filterMap entry? =
      t.strings.filterMap VersionString.told? := by
  obtain ⟨n, hn, hblock⟩ := h
  have hheader : tableHeader = 2 + t.header.length := by
    rw [StringTable.header, List.length_append, length_typeWords, length_octets]
    simp [tableHeader]
  have hfound := blocks_children ht.children hn hblock
  rw [← hheader] at hfound
  have hread := map_found (fun s hs _ => entry?_of_found (ht.strings s hs)) hfound
  have hentries := congrArg (List.filterMap id) hread
  rwa [List.filterMap_map, List.filterMap_map] at hentries

end Tables

/-! ## Resources -/

section Resources
variable {f : StringFileInfo} {before after : List UInt8}

lemma marker_placed {data : Bytes} {offset : Nat}
    (h : Placed data offset (wideText "StringFileInfo")) : Bytes.hasAt data offset marker := by
  have hkey : wideText "StringFileInfo" = marker.toList ++ [0, 0] := by decide +kernel
  rw [hkey] at h
  have hslice := h.left.slice?
  rw [Array.length_toList] at hslice
  simp [Bytes.hasAt, hslice]

lemma length_header (f : StringFileInfo) : f.header.length = 34 := by
  rw [StringFileInfo.header, List.length_append, length_typeWords, length_wideText]
  rfl

lemma length_joined_pos {bs : List SizedBlock} (h : bs ≠ []) : 0 < (joined bs).length := by
  obtain ⟨b, bs, rfl⟩ := List.exists_cons_of_ne_nil h
  have hcore := b.length_core
  cases bs with
  | nil =>
    rw [joined]
    omega
  | cons c bs =>
    rw [joined, List.length_append, List.length_append]
    omega

lemma counts_eq (b : SizedBlock) : b.counts = b.padding ∨ b.counts = 0 := by
  unfold SizedBlock.counts
  cases b.counted
  · exact .inr rfl
  · exact .inl rfl

/-- The tables of a block are read wherever the block stands, if it is the first one. -/
lemma ofResource_stored (hf : f.Writable) (htables : f.tables ≠ [])
    (hfirst : ∀ j < before.length + 6,
      ¬Bytes.hasAt (before ++ f.stored ++ after).toArray j marker) :
    ofResource (before ++ f.stored ++ after).toArray = f.entries := by
  have hwhole : Ends (before ++ f.stored ++ after).toArray before.length
      (littleOctets 2 f.block.length ++ (typeWords f.valueLength f.kind ++
        (wideText "StringFileInfo" ++ (joined f.children ++ zeros f.block.counts ++ after)))) := by
    refine ⟨before, ?_, rfl⟩
    simp only [StringFileInfo.stored, SizedBlock.core, StringFileInfo.block, StringFileInfo.header,
      List.append_assoc]
  generalize (before ++ f.stored ++ after).toArray = data at hwhole hfirst ⊢
  have hmarker : FirstAt data marker (before.length + 6) :=
    ⟨marker_placed hwhole.right.right.left, hfirst⟩
  have hword : Bytes.u16? data before.length = some (UInt16.ofNat f.block.length) :=
    hwhole.left.u16? hf.fits
  have hlength : (UInt16.ofNat f.block.length).toNat = f.block.length :=
    UInt16.toNat_ofNat_of_lt' hf.fits
  have hsum : f.block.length = 36 + (joined f.children ++ zeros f.block.counts).length := by
    rw [SizedBlock.length, StringFileInfo.block, List.length_append, List.length_append,
      length_header, length_zeros]
    omega
  have hchildren : Ends data (before.length + 36)
      (joined f.children ++ zeros f.block.counts ++ after) := hwhole.right.right.right
  have hlong : 36 < (UInt16.ofNat f.block.length).toNat := by
    have hsome : f.children ≠ [] := by
      rwa [StringFileInfo.children, Ne, List.map_eq_nil_iff]
    have hpos := length_joined_pos hsome
    rw [hlength, hsum, List.length_append]
    omega
  have hfit : before.length + (UInt16.ofNat f.block.length).toNat ≤ data.size := by
    rw [hlength, hchildren.size_eq, hsum]
    simp only [List.length_append]
    omega
  rw [ofResource_of_long hmarker hword hlong hfit, hlength, hsum, ← Nat.add_assoc]
  have hextract := hchildren.extract (joined f.children ++ zeros f.block.counts).length
  rw [List.take_left] at hextract
  have hfound := blocks_joined hf.children (counts_eq f.block) ⟨[], hextract, rfl⟩
  have hread := map_found (fun t ht _ => strings_of_found (hf.tables t ht)) hfound
  exact congrArg List.flatten hread

/-! ## Written resources -/

/-- The marker starts with an octet that is 83, and the next but one is 116. -/
lemma octets_of_marker {data : Bytes} {j : Nat} (h : Bytes.hasAt data j marker) :
    data.toList[j]? = some 83 ∧ data.toList[j + 2]? = some 116 := by
  have hslice : Bytes.slice? data j marker.size = some marker := by simpa [Bytes.hasAt] using h
  have hplaced := placed_of_slice? hslice
  rw [marker_eq] at hplaced
  obtain ⟨before, after, hdata, rfl⟩ := hplaced
  simp [hdata]

lemma resourceStart_length : resourceStart.length = 90 := by decide +kernel

/-- No earlier part of a written resource looks like the start of the marker. -/
lemma written_first (pairs : List (String × String)) (length : Nat) :
    ∀ j < (littleOctets 2 length ++ resourceStart).length + 6,
      ¬Bytes.hasAt (littleOctets 2 length ++ resourceStart ++ (writtenInfo pairs).stored ++
        resourceEnd).toArray j marker := by
  intro j hj hmarker
  obtain ⟨hfirst, hthird⟩ := octets_of_marker hmarker
  rw [List.length_append, length_littleOctets, resourceStart_length] at hj
  have hkey : typeWords 0 1 ++ wideText "StringFileInfo" =
      [0, 0, 1, 0, 83, 0] ++ (wideText "StringFileInfo").drop 2 := by decide +kernel
  have hcontent : (writtenInfo pairs).block.content = [0, 0, 1, 0, 83, 0] ++
      (wideText "StringFileInfo").drop 2 ++ joined (writtenInfo pairs).children :=
    congrArg (· ++ joined (writtenInfo pairs).children) hkey
  obtain ⟨rest, hsplit⟩ : ∃ rest, littleOctets 2 length ++ resourceStart ++
      (writtenInfo pairs).stored ++ resourceEnd = littleOctets 2 length ++ (resourceStart ++
        (littleOctets 2 (writtenInfo pairs).block.length ++ ([0, 0, 1, 0, 83, 0] ++ rest))) := by
    rw [StringFileInfo.stored, SizedBlock.core, hcontent]
    simp only [List.append_assoc]
    exact ⟨_, rfl⟩
  rw [List.toList_toArray, hsplit] at hfirst hthird
  -- The two octets would have to stand in what is fixed, since the lengths are too short for them.
  by_cases hstart : j < 90
  · rw [List.getElem?_append_right (by rw [length_littleOctets]; omega), length_littleOctets,
      Nat.add_sub_cancel, List.getElem?_append_left (by rwa [resourceStart_length])] at hthird
    exact absurd (List.mem_of_getElem? hthird) (by decide +kernel)
  · rw [List.getElem?_append_right (by rw [length_littleOctets]; omega), length_littleOctets]
      at hfirst hthird
    by_cases hlength : j < 92
    · rw [List.getElem?_append_left (by rw [resourceStart_length]; omega)] at hfirst
      obtain rfl | rfl : j = 90 ∨ j = 91 := by omega
      · exact absurd hfirst (by decide +kernel)
      · exact absurd hfirst (by decide +kernel)
    · rw [List.getElem?_append_right (by rw [resourceStart_length]; omega), resourceStart_length,
        List.getElem?_append_right (by rw [length_littleOctets]; omega), length_littleOctets,
        List.getElem?_append_left (by simp; omega)] at hthird
      exact absurd (List.mem_of_getElem? hthird) (by decide)

lemma entries_writtenInfo (pairs : List (String × String)) :
    (writtenInfo pairs).entries =
      (pairs.filter fun pair => pair.2 ≠ "").map fun pair => ⟨pair.1, pair.2⟩ := by
  have htold (pair : String × String) : (writtenString pair).told? =
      if pair.2 ≠ "" then some ⟨pair.1, pair.2⟩ else none := by
    simp [VersionString.told?, writtenString]
  simp only [StringFileInfo.entries, writtenInfo, writtenTable, List.flatMap_cons, List.flatMap_nil,
    List.append_nil, List.filterMap_map]
  induction pairs with
  | nil => rfl
  | cons pair pairs ih =>
    rw [List.filterMap_cons, Function.comp_apply, htold, List.filter_cons]
    by_cases hempty : pair.2 = ""
    · simpa [hempty] using ih
    · simpa [hempty] using ih

/-- Whatever strings a block of tables holds, and whatever stands before and behind it, the strings
that are text and not empty are read in order. A written resource is such a block in its place. -/
theorem version_strings_read_back :
    (∀ (f : StringFileInfo) (before after : List UInt8), f.Writable → f.tables ≠ [] →
      (∀ j < before.length + 6, ¬Bytes.hasAt (before ++ f.stored ++ after).toArray j marker) →
      ofResource (before ++ f.stored ++ after).toArray = f.entries) ∧
    ∀ pairs : List (String × String), (writtenInfo pairs).Writable →
      (∃ before after, versionResource pairs = before ++ (writtenInfo pairs).stored ++ after ∧
        ∀ j < before.length + 6, ¬Bytes.hasAt (versionResource pairs).toArray j marker) ∧
      ofResource (versionResource pairs).toArray =
        (pairs.filter fun pair => pair.2 ≠ "").map fun pair => ⟨pair.1, pair.2⟩ := by
  refine ⟨fun f before after => ofResource_stored, fun pairs hpairs => ?_⟩
  obtain ⟨length, hwritten⟩ := versionResource_eq pairs
  have hfirst := written_first pairs length
  have hread := ofResource_stored hpairs (List.cons_ne_nil _ _) hfirst
  rw [← hwritten] at hfirst hread
  refine ⟨⟨_, resourceEnd, hwritten, hfirst⟩, ?_⟩
  rw [hread, entries_writtenInfo]

/-- Tables in which some paddings are counted and others are not, with a value of a pair of units,
an empty one, and one that is not text. -/
def mixedInfo : StringFileInfo where
  valueLength := 0
  kind := 1
  tables := [
    ⟨0, 1, languageKey, [⟨2, 1, "a", "b", false⟩, ⟨0, 1, "ab", "", true⟩, ⟨1, 0, "c", "d", false⟩],
      false⟩,
    ⟨0, 1, languageKey, [], true⟩,
    ⟨0, 0, languageKey, [⟨3, 1, "key", "𝄞", true⟩, ⟨2, 1, "a", "b", false⟩], true⟩]
  counted := false

theorem version_strings_read_back_mixed :
    ofResource ([1, 2, 3] ++ mixedInfo.stored ++ [255]).toArray =
        [⟨"a", "b"⟩, ⟨"key", "𝄞"⟩, ⟨"a", "b"⟩] ∧
      ofResource (versionResource [("FileVersion", "1.0"), ("Comments", "")]).toArray =
        [⟨"FileVersion", "1.0"⟩] := by
  obtain ⟨hread, hwritten⟩ := version_strings_read_back
  constructor
  · rw [hread mixedInfo [1, 2, 3] [255] (by decide +kernel) (List.cons_ne_nil _ _)
      (by decide +kernel)]
    decide
  · rw [(hwritten [("FileVersion", "1.0"), ("Comments", "")] (by decide +kernel)).2]
    decide

end Resources
end Hallmark.Proofs
