import Hallmark.Proofs.BuiltImages
import Hallmark.Proofs.LocatedStructures

/-!
# Reading the images that are built for tests

The headers of such an image are read back with its facts and its rows, each section with the content
it was given, and the import table and the resource tree with the section that holds them.
-/

namespace Hallmark.Proofs
open Pe

/-! ## The headers -/

section Headers
variable {b : PeBuilder} {place i start : Nat} {piece : List UInt8} {s : BuiltSection}

/-- The row of a section as it is read. -/
def BuiltSection.header (i start : Nat) (s : BuiltSection) : SectionHeader :=
  ⟨Bytes.ofString s.name, .ofNat (sectionAddress i), .ofNat s.data.length, .ofNat s.rawSize,
    .ofNat start⟩

/-- The section as it is loaded. -/
def BuiltSection.loaded (i start : Nat) (s : BuiltSection) : Pe.Section :=
  ⟨s.header i start, s.data.toArray⟩

lemma size_build (h : b.Buildable) :
    sectionTableAt b.words + 40 * b.sections.length ≤ b.build.size := by
  have htable := table_le_headersSize b
  rw [PeBuilder.build, List.size_toArray, List.length_append, length_headers h]
  omega

lemma header_placed_build (h : b.Buildable) (hw : (place, piece) ∈ b.headerWrites) :
    Placed b.build place piece := written_placed h (List.mem_append_left _ hw)

lemma signature_placed (h : b.Buildable) : Placed b.build 0 [0x4d, 0x5a] := by
  have hfirst : Placed b.build 0 [0x4d] :=
    header_placed_build h (by simp [PeBuilder.headerWrites])
  have hsecond : Placed b.build 1 [0x5a] :=
    header_placed_build h (by simp [PeBuilder.headerWrites])
  exact hfirst.append hsecond

/-- A number about the image as a whole, in the headers that are cut out of the file. -/
lemma header_within (h : b.Buildable) {len : Nat} (hw : (headersAt + place, piece) ∈ b.headerWrites)
    (hstop : place + piece.length ≤ len) :
    Placed (b.build.extract headersAt (headersAt + len)) place piece := by
  have hplaced := (header_placed_build h hw).within headersAt len (Nat.le_add_right _ _) (by omega)
  rwa [Nat.add_sub_cancel_left] at hplaced

lemma headers_slice (h : b.Buildable) {len : Nat} (hlen : headersAt + len ≤ sectionTableAt b.words) :
    Bytes.slice? b.build headersAt len = some (b.build.extract headersAt (headersAt + len)) := by
  have hsize := size_build h
  rw [Bytes.slice?, if_pos (by omega)]

lemma peOffset_build (h : b.Buildable) : FileKind.peOffset? b.build = some headersAt := by
  have hsize := size_build h
  have hroom : 64 ≤ b.build.size := by
    have htable : 64 ≤ sectionTableAt b.words := by cases b.words <;> decide
    omega
  have hplaced : Placed b.build 0x3c (littleOctets 4 headersAt) :=
    header_placed_build h (by simp [PeBuilder.headerWrites])
  rw [FileKind.peOffset?, if_pos hroom, hplaced.nat? (by decide)]

lemma kind_build (h : b.Buildable) : FileKind.ofBytes b.build = .ok (.pe b.words) := by
  have hsize := size_build h
  have hroom : ¬b.build.size < 16 := by
    have htable : 16 ≤ sectionTableAt b.words := by cases b.words <;> decide
    omega
  have hheaders : headersAt + 120 ≤ sectionTableAt b.words := by cases b.words <;> decide
  have hmark : Bytes.hasAt (b.build.extract headersAt (headersAt + 120)) 0 #[0x50, 0x45, 0, 0] =
      true := by
    have hplaced : Placed (b.build.extract headersAt (headersAt + 120)) 0 [0x50, 0x45, 0, 0] :=
      header_within h (by simp [PeBuilder.headerWrites]) (by simp)
    rw [Bytes.hasAt, beq_iff_eq]
    exact hplaced.slice?
  have hmagic : Bytes.nat? (b.build.extract headersAt (headersAt + 120)) .little 2 24 =
      some (b.words.pick 0x10b 0x20b) := by
    have hplaced : Placed (b.build.extract headersAt (headersAt + 120)) 24
        (littleOctets 2 (b.words.pick 0x10b 0x20b)) :=
      header_within h (by simp [PeBuilder.headerWrites, optionalHeaderAt])
        (by simp [length_littleOctets])
    exact hplaced.nat? (by cases b.words <;> decide)
  have hwords : FileKind.peWords? b.build = some b.words := by
    simp only [FileKind.peWords?, peOffset_build h, Option.bind_eq_bind, Option.bind_some,
      headers_slice h hheaders, hmark, hmagic]
    cases b.words <;> rfl
  obtain ⟨before, after, hdata, hbefore⟩ := signature_placed h
  rw [List.length_eq_zero_iff.mp hbefore, List.nil_append] at hdata
  simp [FileKind.ofBytes, FileKind.magics, hasAt_start, hdata, hroom, hwords]

/-- The name of a row, without the zeros behind it. -/
lemma beforeNul_name {name : Bytes} (hnul : 0 ∉ name.toList) (n : Nat) :
    Bytes.beforeNul (name.toList ++ zeros n).toArray = name := by
  cases n with
  | zero =>
    have hnone : Bytes.nul? name 0 name.size = none := by
      cases hclose : Bytes.nul? name 0 name.size with
      | none => rfl
      | some close =>
        have hzero := Array.mem_of_getElem? (nul?_some hclose).2.2.1
        exact absurd (Array.mem_toList_iff.mpr hzero) hnul
    have hname : (name.toList ++ zeros 0).toArray = name := by simp [zeros]
    rw [hname, Bytes.beforeNul, Bytes.cstring?, hnone, Option.map_none, Option.getD_none]
  | succ n =>
    have hplaced : Placed (name.toList ++ zeros (n + 1)).toArray 0 (name.toList ++ [0]) :=
      ⟨[], zeros n, by simp [zeros, List.replicate_succ], rfl⟩
    have hclose : Bytes.nul? (name.toList ++ zeros (n + 1)).toArray 0
        (name.toList ++ zeros (n + 1)).toArray.size = some (0 + name.toList.length) :=
      hplaced.nul? hnul (by simp [zeros])
    have hslice := hplaced.left.slice?
    rw [Bytes.slice?, if_pos hplaced.left.le_size, Option.some.injEq] at hslice
    rw [Bytes.beforeNul, Bytes.cstring?, hclose, Option.map_some, Option.getD_some, hslice]

/-- What stands in a row of the section table, in the row that is cut out of the table. -/
lemma row_within {data : Bytes} {base row count offset : Nat}
    (hplaced : Placed data (base + 40 * row + offset) piece) (hrow : row < count)
    (hstop : offset + piece.length ≤ 40) :
    Placed ((data.extract base (base + 40 * count)).extract (40 * row) (40 * (row + 1))) offset
      piece := by
  have htable := hplaced.within base (40 * count) (by omega) (by omega)
  have hrecord := htable.within (40 * row) 40 (by omega) (by omega)
  have hplace : base + 40 * row + offset - base - 40 * row = offset := by omega
  rwa [hplace] at hrecord

/-- The section table that is read from the file. -/
def PeBuilder.readTable (b : PeBuilder) : Bytes :=
  b.build.extract (sectionTableAt b.words) (sectionTableAt b.words + 40 * b.sections.length)

lemma number_readTable (h : b.Buildable) (hs : b.placedSections[i]? = some (start, s))
    {offset n : Nat}
    (hw : (sectionTableAt b.words + 40 * i + offset, littleOctets 4 n) ∈ rowWrites b.words i start s)
    (hoffset : offset + 4 ≤ 40) (hn : n < 2 ^ 32) :
    Bytes.u32? (b.readTable.extract (40 * i) (40 * (i + 1))) offset = some (.ofNat n) := by
  have hi := (List.getElem?_eq_some_iff.mp (getElem?_placedSections hs)).1
  have hplaced := section_placed h hs (List.mem_append_left _ hw)
  exact (row_within hplaced hi (by rwa [length_littleOctets])).u32? hn

lemma row_read (h : b.Buildable) (hs : b.placedSections[i]? = some (start, s)) :
    SectionHeader.ofRecord (b.readTable.extract (40 * i) (40 * (i + 1))) = s.header i start := by
  have hsection := getElem?_placedSections hs
  have hi := (List.getElem?_eq_some_iff.mp hsection).1
  obtain ⟨hnul, hsize⟩ := h.names s (List.mem_of_getElem? hsection)
  have hdata := h.data s (List.mem_of_getElem? hsection)
  have hraw := rawSize_le h (List.mem_of_getElem? hsection)
  have hcount := h.count
  have hfill : ((Bytes.ofString s.name).toList ++
      zeros (8 - (Bytes.ofString s.name).size)).length = 8 := by
    rw [List.length_append, length_zeros, Array.length_toList]
    omega
  have hname : Placed (b.readTable.extract (40 * i) (40 * (i + 1))) 0 _ :=
    row_within (name_placed h hs) hi (by omega)
  have hvirtual : Bytes.u32? _ 8 = some (.ofNat s.data.length) :=
    number_readTable h hs (by simp [rowWrites]) (by decide) (by omega)
  have haddress : Bytes.u32? _ 12 = some (.ofNat (sectionAddress i)) :=
    number_readTable h hs (by simp [rowWrites]) (by decide) (by unfold sectionAddress; omega)
  have hrawSize : Bytes.u32? _ 16 = some (.ofNat s.rawSize) :=
    number_readTable h hs (by simp [rowWrites]) (by decide) (by omega)
  have hstart : Bytes.u32? _ 20 = some (.ofNat start) :=
    number_readTable h hs (by simp [rowWrites]) (by decide) (content_built h hs).2
  have hslice := hname.slice?
  have hroom := hname.le_size
  rw [Bytes.slice?, if_pos hroom, hfill, Option.some.injEq] at hslice
  rw [SectionHeader.ofRecord, hslice, beforeNul_name (zero_not_mem_ofString hnul)]
  simp only [hvirtual, haddress, hrawSize, hstart, Option.getD_some]
  rfl

/-- The directories that are read from the end of the optional header. -/
def readDirectory (b : PeBuilder) (slot : Nat) : Option Directory :=
  Image.directoryAt (b.build.extract (directoriesAt b.words) (directoriesAt b.words + 128)) (8 * slot)

/-- The image as it is read. -/
def PeBuilder.image (b : PeBuilder) : Image where
  words := b.words
  timestamp := b.timestamp
  entrypoint := b.entrypoint
  sections := b.placedSections.mapIdx fun i q => q.2.header i q.1
  directories := (List.range 16).map (readDirectory b)

/-- The headers that are read from the file, up to the directories. -/
def PeBuilder.readHeaders (b : PeBuilder) : Bytes :=
  b.build.extract headersAt (headersAt + (24 + Image.optionalHeaderSize b.words))

/-- What stands in the headers that are read. -/
structure HeadersRead (b : PeBuilder) : Prop where
  sectionCount : Bytes.u16? b.readHeaders 6 = some (.ofNat b.sections.length)
  timestamp : Bytes.u32? b.readHeaders 8 = some b.timestamp
  optionalSize : Bytes.u16? b.readHeaders 20 = some (.ofNat (b.words.pick 224 240))
  entrypoint : Bytes.u32? b.readHeaders 40 = some b.entrypoint
  directoryCount :
    Bytes.u32? b.readHeaders (24 + Image.optionalHeaderSize b.words - 4) = some 16

lemma half_readHeaders (h : b.Buildable) {n : Nat}
    (hw : (headersAt + place, littleOctets 2 n) ∈ b.headerWrites) (hplace : place ≤ 20)
    (hn : n < 2 ^ 16) : Bytes.u16? b.readHeaders place = some (.ofNat n) :=
  (header_within h hw (by rw [length_littleOctets]; omega)).u16? hn

lemma word_readHeaders (h : b.Buildable) {n : Nat}
    (hw : (headersAt + place, littleOctets 4 n) ∈ b.headerWrites)
    (hplace : place + 4 ≤ 24 + Image.optionalHeaderSize b.words) (hn : n < 2 ^ 32) :
    Bytes.u32? b.readHeaders place = some (.ofNat n) :=
  (header_within h hw (by rwa [length_littleOctets])).u32? hn

lemma headersRead_build (h : b.Buildable) : HeadersRead b := by
  have hcount := h.count
  have hnarrow : 96 ≤ Image.optionalHeaderSize b.words := by cases b.words <;> decide
  refine ⟨?_, ?_, ?_, ?_, ?_⟩
  · exact half_readHeaders h (by simp [PeBuilder.headerWrites]) (by decide) (by omega)
  · rw [← UInt32.ofNat_toNat (x := b.timestamp)]
    exact word_readHeaders h (by simp [PeBuilder.headerWrites]) (by omega) b.timestamp.toNat_lt
  · exact half_readHeaders h (by simp [PeBuilder.headerWrites]) (by decide)
      (by cases b.words <;> decide)
  · rw [← UInt32.ofNat_toNat (x := b.entrypoint)]
    exact word_readHeaders h (by simp [PeBuilder.headerWrites, optionalHeaderAt]) (by omega)
      b.entrypoint.toNat_lt
  · refine word_readHeaders h ?_ (by omega) (by decide)
    cases hwords : b.words <;>
      simp [PeBuilder.headerWrites, optionalHeaderAt, hwords, Image.optionalHeaderSize,
        WordSize.pick]

lemma directoriesAt_eq (words : WordSize) :
    directoriesAt words = headersAt + 24 + Image.optionalHeaderSize words := rfl

/-- The optional header ends with room for sixteen directories. -/
lemma optionalSize_eq (words : WordSize) :
    (UInt16.ofNat (words.pick 224 240)).toNat = Image.optionalHeaderSize words + 128 := by
  cases words <;> decide

/-- The rows of the section table are those of the sections, in order. -/
lemma rows_read (h : b.Buildable) :
    (Bytes.records b.readTable 40 b.sections.length).map SectionHeader.ofRecord =
      b.image.sections := by
  apply List.ext_getElem
  · simp [Bytes.records, PeBuilder.image, length_placedSections]
  · intro i hi hi'
    rw [PeBuilder.image, List.length_mapIdx, length_placedSections] at hi'
    simp only [PeBuilder.image, List.getElem_mapIdx, Bytes.records, List.getElem_map,
      List.getElem_range]
    exact row_read h (List.getElem?_eq_getElem _)

/-- The headers are read up to the directories, then the directories, then the section table. -/
lemma image_build (h : b.Buildable) : Image.ofBytes b.words b.build = .ok b.image := by
  have hsize := size_build h
  have htable := sectionTableAt_eq b.words
  have hfixed := directoriesAt_eq b.words
  have hread := headersRead_build h
  have hheaders : Bytes.slice? b.build headersAt (24 + Image.optionalHeaderSize b.words) =
      some b.readHeaders := headers_slice h (by omega)
  have hrest : Bytes.range? b.build (headersAt + 24 + Image.optionalHeaderSize b.words) 128 =
      some (b.build.extract (directoriesAt b.words) (directoriesAt b.words + 128)) :=
    range?_extract (by omega)
  have hrestSize : ¬(b.build.extract (directoriesAt b.words)
      (directoriesAt b.words + 128)).size < 8 * (16 : UInt32).toNat := by
    rw [Array.size_extract_of_le (by omega), Nat.add_sub_cancel_left]
    decide
  have hrows : Bytes.range? b.build (headersAt + 24 + (Image.optionalHeaderSize b.words + 128))
      (40 * b.sections.length) = some b.readTable := by
    rw [show headersAt + 24 + (Image.optionalHeaderSize b.words + 128) = sectionTableAt b.words by
      omega]
    exact range?_extract hsize
  have hsections : (UInt16.ofNat b.sections.length).toNat = b.sections.length :=
    UInt16.toNat_ofNat_of_lt' (Nat.lt_of_le_of_lt h.count (by decide))
  rw [Image.ofBytes, peOffset_build h]
  simp only [Option.getD_some, hheaders, hread.optionalSize, hread.directoryCount,
    hread.sectionCount, hread.timestamp, hread.entrypoint, optionalSize_eq,
    if_neg (Nat.not_lt.mpr (Nat.le_add_right _ 128)), Nat.add_sub_cancel_left, hrest,
    if_neg hrestSize, hsections, SectionHeader.size, hrows, rows_read h]
  rfl

end Headers

/-! ## The sections -/

section Sections
variable {b : PeBuilder} {i start : Nat} {s : BuiltSection}

def PeBuilder.loadedSections (b : PeBuilder) : List Pe.Section :=
  b.placedSections.mapIdx fun i q => q.2.loaded i q.1

lemma toNat_sectionAddress (h : b.Buildable) (hi : i < b.sections.length) :
    (UInt32.ofNat (sectionAddress i)).toNat = sectionAddress i := by
  have hcount := h.count
  exact UInt32.toNat_ofNat_of_lt' (show 0x1000 * (i + 1) < 2 ^ 32 by omega)

lemma toNat_dataLength (h : b.Buildable) (hs : b.sections[i]? = some s) :
    (UInt32.ofNat s.data.length).toNat = s.data.length :=
  UInt32.toNat_ofNat_of_lt' (Nat.lt_of_le_of_lt (h.data s (List.mem_of_getElem? hs)) (by decide))

lemma load_built (h : b.Buildable) (hs : b.placedSections[i]? = some (start, s)) :
    (s.header i start).load b.build = .ok (s.loaded i start) := by
  obtain ⟨hplaced, hstart⟩ := content_built h hs
  have hsection := getElem?_placedSections hs
  have hraw : s.data.length ≤ s.rawSize := le_alignFile _
  have hrawSize := rawSize_le h (List.mem_of_getElem? hsection)
  have hfile : (s.header i start).fileSize = s.data.length := by
    have hstored : (UInt32.ofNat s.rawSize).toNat = s.rawSize :=
      UInt32.toNat_ofNat_of_lt' (Nat.lt_of_le_of_lt hrawSize (by decide))
    rw [SectionHeader.fileSize, BuiltSection.header, toNat_dataLength h hsection, hstored,
      Nat.min_eq_left hraw]
  have hoffset : (s.header i start).rawOffset.toNat = start := UInt32.toNat_ofNat_of_lt' hstart
  rw [SectionHeader.load, hfile, hoffset, hplaced.range?]
  rfl

lemma loadSections_build (h : b.Buildable) :
    b.image.loadSections b.build = .ok b.loadedSections := by
  rw [Image.loadSections, PeBuilder.image, PeBuilder.loadedSections, List.mapIdx_eq_zipIdx_map,
    List.mapIdx_eq_zipIdx_map]
  refine mapM_map_ok ?_
  rintro ⟨⟨start, s⟩, i⟩ hq
  exact load_built h (List.mem_zipIdx_iff_getElem?.mp hq)

lemma map_placedSections (b : PeBuilder) : b.placedSections.map Prod.snd = b.sections :=
  map_withPlaces _ _

/-- The loaded sections are those that were given, with some places in the file. -/
lemma getElem?_loadedSections {l : Pe.Section} : b.loadedSections[i]? = some l ↔
    ∃ s start, b.sections[i]? = some s ∧ b.placedSections[i]? = some (start, s) ∧
      l = s.loaded i start := by
  rw [PeBuilder.loadedSections, List.getElem?_mapIdx, Option.map_eq_some_iff]
  constructor
  · rintro ⟨⟨start, s⟩, hq, rfl⟩
    exact ⟨s, start, getElem?_placedSections hq, hq, rfl⟩
  · rintro ⟨s, start, -, hq, rfl⟩
    exact ⟨(start, s), hq, rfl⟩

lemma loaded_of_section (hs : b.sections[i]? = some s) :
    ∃ start, b.loadedSections[i]? = some (s.loaded i start) := by
  rw [← map_placedSections, List.getElem?_map, Option.map_eq_some_iff] at hs
  obtain ⟨⟨start, s⟩, hq, rfl⟩ := hs
  exact ⟨start, getElem?_loadedSections.mpr ⟨s, start, getElem?_placedSections hq, hq, rfl⟩⟩

lemma summaries_build (b : PeBuilder) : b.loadedSections.map Section.summary =
    b.sections.mapIdx fun i s => ⟨s.name, .ofNat (sectionAddress i), .ofNat s.data.length,
      .ofNat s.rawSize, Entropy.rounded s.data.toArray, Digest.md5 s.data.toArray⟩ := by
  apply List.ext_getElem?
  intro i
  rw [List.getElem?_map, List.getElem?_mapIdx, PeBuilder.loadedSections, List.getElem?_mapIdx,
    ← map_placedSections, List.getElem?_map]
  cases b.placedSections[i]? with
  | none => rfl
  | some q =>
    simp only [Option.map_some, Section.summary, SectionSummary.ofBytes, BuiltSection.loaded,
      BuiltSection.header, lossy_ofString]

/-- The first section with a property. -/
lemma find_loaded {p : Pe.Section → Bool} {l : Pe.Section} (hl : b.loadedSections[i]? = some l)
    (hp : p l = true) (hbefore : ∀ j < i, ∀ l', b.loadedSections[j]? = some l' → p l' = false) :
    b.loadedSections.find? p = some l := by
  rw [List.find?_eq_some_iff_getElem]
  obtain ⟨hi, hget⟩ := List.getElem?_eq_some_iff.mp hl
  refine ⟨hp, i, hi, hget, fun j hj => ?_⟩
  rw [hbefore j hj _ (List.getElem?_eq_getElem (hj.trans hi))]
  rfl

/-- Of all sections only one is mapped over its address. -/
lemma find_address (h : b.Buildable) (hs : b.sections[i]? = some s) (hdata : s.data ≠ []) :
    ∃ start, b.loadedSections.find? (fun l => l.contains (.ofNat (sectionAddress i))) =
      some (s.loaded i start) := by
  have hi := (List.getElem?_eq_some_iff.mp hs).1
  have hpos := List.length_pos_iff.mpr hdata
  obtain ⟨start, hloaded⟩ := loaded_of_section hs
  refine ⟨start, find_loaded hloaded ?_ ?_⟩
  · rw [contains_iff, Maps]
    simp only [BuiltSection.loaded, BuiltSection.header, toNat_sectionAddress h hi,
      toNat_dataLength h hs]
    omega
  · intro j hj l hl
    obtain ⟨t, _, ht, -, rfl⟩ := getElem?_loadedSections.mp hl
    have hsmall := h.data t (List.mem_of_getElem? ht)
    rw [Bool.eq_false_iff, ne_eq, contains_iff, Maps]
    simp only [BuiltSection.loaded, BuiltSection.header, toNat_sectionAddress h hi,
      toNat_sectionAddress h (hj.trans hi), toNat_dataLength h ht]
    unfold sectionAddress
    omega

end Sections

/-! ## The directories -/

section Directories
variable {b : PeBuilder} {i slot : Nat} {s : BuiltSection}

lemma directory?_image (hslot : slot < 16) : b.image.directory? slot = readDirectory b slot := by
  rw [Image.directory?, PeBuilder.image, List.getElem?_map, List.getElem?_range hslot]
  rfl

lemma slot_within {offset n : Nat} (hslot : slot < 16) (hoffset : offset ≤ 4)
    (hplaced : Placed b.build (directoriesAt b.words + slot * 8 + offset) (littleOctets 4 n))
    (hn : n < 2 ^ 32) :
    Bytes.u32? (b.build.extract (directoriesAt b.words) (directoriesAt b.words + 128))
      (8 * slot + offset) = some (.ofNat n) := by
  have hwithin := hplaced.within (directoriesAt b.words) 128 (by omega)
    (by rw [length_littleOctets]; omega)
  have hplace : directoriesAt b.words + slot * 8 + offset - directoriesAt b.words =
      8 * slot + offset := by omega
  rw [hplace] at hwithin
  exact hwithin.u32? hn

/-- The directory for what a section holds leads to this section. -/
lemma directory_held (h : b.Buildable) (hs : b.sections[i]? = some s)
    (hslot : s.holds.slot? = some slot) : b.image.directory? slot =
      some ⟨.ofNat (sectionAddress i), .ofNat s.data.length⟩ := by
  have hlt := slot?_lt hslot
  have hi := (List.getElem?_eq_some_iff.mp hs).1
  have haddress := toNat_sectionAddress h hi
  have hlength := toNat_dataLength h hs
  obtain ⟨start, hq⟩ : ∃ start, b.placedSections[i]? = some (start, s) := by
    rw [← map_placedSections, List.getElem?_map, Option.map_eq_some_iff] at hs
    obtain ⟨⟨start, s⟩, hq, rfl⟩ := hs
    exact ⟨start, hq⟩
  have hrva : Bytes.u32? _ (8 * slot + 0) = some (.ofNat (sectionAddress i)) :=
    slot_within hlt (by decide)
      (section_placed h hq (List.mem_append_right _ (by simp [directoryWrites, hslot])))
      (haddress ▸ UInt32.toNat_lt _)
  have hsize : Bytes.u32? _ (8 * slot + 4) = some (.ofNat s.data.length) :=
    slot_within hlt (by decide)
      (section_placed h hq (List.mem_append_right _ (by simp [directoryWrites, hslot])))
      (hlength ▸ UInt32.toNat_lt _)
  have hne : UInt32.ofNat (sectionAddress i) ≠ 0 := by
    rw [← UInt32.toNat_inj.ne, haddress]
    exact Nat.mul_ne_zero (by decide) (Nat.succ_ne_zero i)
  rw [directory?_image hlt, readDirectory, Image.directoryAt, ← Nat.add_zero (8 * slot), hrva,
    Nat.add_zero, hsize]
  simp only [Option.bind_eq_bind, Option.bind_some, if_neg hne]

/-- The directory for what no section holds is empty. -/
lemma directory_free (h : b.Buildable) (hslot : slot < 16)
    (hfree : ∀ s ∈ b.sections, s.holds.slot? ≠ some slot) : b.image.directory? slot = none := by
  have hzeros := slot_empty h hslot hfree
  rw [show zeros 8 = littleOctets 4 0 ++ littleOctets 4 0 from rfl] at hzeros
  have hrva : Bytes.u32? _ (8 * slot + 0) = some (.ofNat 0) :=
    slot_within hslot (by decide) hzeros.left (by decide)
  have hsize : Bytes.u32? _ (8 * slot + 4) = some (.ofNat 0) :=
    slot_within hslot (by decide) hzeros.right (by decide)
  rw [directory?_image hslot, readDirectory, Image.directoryAt, ← Nat.add_zero (8 * slot), hrva,
    Nat.add_zero, hsize]
  rfl

end Directories

/-! ## The inputs -/

section Inputs
variable {b : PeBuilder} {i : Nat} {s : BuiltSection}

lemma inputs_build (h : b.Buildable) : Inputs.ofBytes b.build = .ok {
    header := {
      compilationTimestamp := if b.timestamp = 0 then none else some b.timestamp
      entrypoint := b.entrypoint
      targetMachine := b.words.pick "x32" "x64"
      containedSections := UInt64.ofNat b.loadedSections.length }
    sections := b.loadedSections.map Section.summary
    exports := b.image.exports b.build
    imports := b.image.imports? b.loadedSections
    resources := b.image.resources? b.loadedSections } := by
  rw [Inputs.ofBytes, Inputs.read, kind_build h, except_ok_bind]
  simp only [image_build h, except_ok_bind, Inputs.ofImage, loadSections_build h]
  rfl

lemma exports_build (h : b.Buildable) : b.image.exports b.build = [] := by
  have hnone : b.image.directory? 0 = none := by
    refine directory_free h (by decide) fun s _ => ?_
    cases s.holds <;> simp [HeldStructure.slot?]
  rw [Image.exports, Image.exportNames?, hnone]
  rfl

/-- What a section holds is located in this section. -/
lemma locate_held {slot : Nat} (h : b.Buildable) (hs : b.sections[i]? = some s)
    (hslot : s.holds.slot? = some slot) :
    ∃ start, b.image.locate? b.loadedSections slot =
      some (s.loaded i start, .ofNat (sectionAddress i)) := by
  have hdata := h.held s (List.mem_of_getElem? hs) (slot?_ne_nothing hslot)
  have hne : UInt32.ofNat s.data.length ≠ 0 := by
    rw [← UInt32.toNat_inj.ne, toNat_dataLength h hs]
    exact (List.length_pos_iff.mpr hdata).ne'
  obtain ⟨start, hfind⟩ := find_address h hs hdata
  refine ⟨start, ?_⟩
  rw [Image.locate?, directory_held h hs hslot]
  simp only [Option.bind_eq_bind, Option.bind_some, if_neg hne, hfind]
  rfl

lemma locate_free {slot : Nat} (h : b.Buildable) (hslot : slot < 16)
    (hfree : ∀ s ∈ b.sections, s.holds.slot? ≠ some slot) :
    b.image.locate? b.loadedSections slot = none := by
  rw [Image.locate?, directory_free h hslot hfree]
  rfl

lemma imports_held (h : b.Buildable) (hs : b.sections[i]? = some s) (hholds : s.holds = .imports) :
    b.image.imports? b.loadedSections =
      some ⟨s.data.toArray, .ofNat (sectionAddress i), .ofNat (sectionAddress i), b.words⟩ := by
  obtain ⟨start, hlocate⟩ := locate_held h hs (congrArg HeldStructure.slot? hholds)
  rw [Image.imports?, hlocate]
  rfl

lemma imports_free (h : b.Buildable) (hfree : ∀ s ∈ b.sections, s.holds ≠ .imports) :
    b.image.imports? b.loadedSections = none := by
  have hslot : HeldStructure.imports.slot? = some 1 := rfl
  rw [Image.imports?, locate_free h (by decide) fun s hs hs' => hfree s hs (slot?_inj hs' hslot)]
  rfl

lemma resources_held (h : b.Buildable) (hs : b.sections[i]? = some s)
    (hholds : s.holds = .resources) : b.image.resources? b.loadedSections =
      some ⟨s.data.toArray, .ofNat (sectionAddress i)⟩ := by
  obtain ⟨start, hlocate⟩ := locate_held h hs (congrArg HeldStructure.slot? hholds)
  have hlocated : b.image.locatedResources? b.loadedSections =
      some ⟨s.data.toArray, .ofNat (sectionAddress i)⟩ := by
    rw [Image.locatedResources?, hlocate]
    simp [Bytes.from?, BuiltSection.loaded, BuiltSection.header]
  rw [Image.resources?, hlocated, Option.some_or]

lemma resources_free (h : b.Buildable) (hfree : ∀ s ∈ b.sections, s.holds ≠ .resources) :
    b.image.resources? b.loadedSections =
      (b.loadedSections.find? fun s => s.rawName == Image.resourceSectionName).map fun s =>
        ⟨s.bytes, s.virtualAddress⟩ := by
  have hslot : HeldStructure.resources.slot? = some 2 := rfl
  rw [Image.resources?, Image.locatedResources?,
    locate_free h (by decide) fun s hs hs' => hfree s hs (slot?_inj hs' hslot)]
  rfl

lemma rawName_loaded (s : BuiltSection) (i start : Nat) :
    ((s.loaded i start).rawName == Image.resourceSectionName) = decide (s.name = ".rsrc") := by
  rw [Bool.eq_iff_iff, beq_iff_eq, decide_eq_true_iff]
  exact ofString_inj

/-- Without a directory the resources are in the first section that is named for them. -/
lemma resources_named (h : b.Buildable) (hfree : ∀ s ∈ b.sections, s.holds ≠ .resources)
    (hs : b.sections[i]? = some s) (hname : s.name = ".rsrc")
    (hfirst : ∀ j < i, ∀ t, b.sections[j]? = some t → t.name ≠ ".rsrc") :
    b.image.resources? b.loadedSections =
      some ⟨s.data.toArray, .ofNat (sectionAddress i)⟩ := by
  obtain ⟨start, hloaded⟩ := loaded_of_section hs
  have hfind : b.loadedSections.find? (fun s => s.rawName == Image.resourceSectionName) =
      some (s.loaded i start) := by
    refine find_loaded hloaded ?_ ?_
    · rw [rawName_loaded, decide_eq_true_iff]
      exact hname
    · intro j hj l hl
      obtain ⟨t, _, ht, -, rfl⟩ := getElem?_loadedSections.mp hl
      rw [rawName_loaded, decide_eq_false_iff_not]
      exact hfirst j hj t ht
  rw [resources_free h hfree, hfind]
  rfl

lemma resources_none (h : b.Buildable) (hfree : ∀ s ∈ b.sections, s.holds ≠ .resources)
    (hnames : ∀ s ∈ b.sections, s.name ≠ ".rsrc") :
    b.image.resources? b.loadedSections = none := by
  rw [resources_free h hfree, Option.map_eq_none_iff, List.find?_eq_none]
  intro l hl
  obtain ⟨i, hi⟩ := List.mem_iff_getElem?.mp hl
  obtain ⟨s, _, hs, -, rfl⟩ := getElem?_loadedSections.mp hi
  rw [rawName_loaded, decide_eq_true_iff]
  exact hnames s (List.mem_of_getElem? hs)

end Inputs

/-- An image is read back as what it was built from: its facts, its sections in order with the places
and the sizes that the builder gives them, and its structures with the section that holds them. When
no section was built to hold resources, they are taken from the first one that is named for them. -/
theorem built_image_read_back (b : PeBuilder) (h : b.Buildable) :
    ContainerKind.detect b.build = .pe ∧ ∃ inputs, Inputs.ofBytes b.build = .ok inputs ∧
      inputs.header = ⟨if b.timestamp = 0 then none else some b.timestamp, b.entrypoint,
        b.words.pick "x32" "x64", .ofNat b.sections.length⟩ ∧
      inputs.sections = (b.sections.mapIdx fun i s =>
        ⟨s.name, .ofNat (0x1000 * (i + 1)), .ofNat s.data.length,
          .ofNat ((s.data.length + 0x1ff) / 0x200 * 0x200), Entropy.rounded s.data.toArray,
          Digest.md5 s.data.toArray⟩) ∧
      inputs.exports = [] ∧
      (∀ i s, b.sections[i]? = some s → s.holds = .imports → inputs.imports =
        some ⟨s.data.toArray, .ofNat (0x1000 * (i + 1)), .ofNat (0x1000 * (i + 1)), b.words⟩) ∧
      ((∀ s ∈ b.sections, s.holds ≠ .imports) → inputs.imports = none) ∧
      (∀ i s, b.sections[i]? = some s → s.holds = .resources →
        inputs.resources = some ⟨s.data.toArray, .ofNat (0x1000 * (i + 1))⟩) ∧
      ((∀ s ∈ b.sections, s.holds ≠ .resources) →
        (∀ i s, b.sections[i]? = some s → s.name = ".rsrc" →
          (∀ j < i, ∀ t, b.sections[j]? = some t → t.name ≠ ".rsrc") →
          inputs.resources = some ⟨s.data.toArray, .ofNat (0x1000 * (i + 1))⟩) ∧
        ((∀ s ∈ b.sections, s.name ≠ ".rsrc") → inputs.resources = none)) ∧
      detectPacker inputs.sections =
        if ∃ s ∈ b.sections, s.name = "UPX0" then some "upx" else none := by
  have hkind : ContainerKind.detect b.build = .pe := by
    rw [ContainerKind.detect, kind_build h]
  have hcount : b.loadedSections.length = b.sections.length := by
    rw [PeBuilder.loadedSections, List.length_mapIdx, length_placedSections]
  refine ⟨hkind, _, inputs_build h, ?_, summaries_build b, exports_build h, ?_⟩
  · simp only [hcount]
  refine ⟨fun i s => imports_held h, imports_free h, fun i s => resources_held h,
    fun hfree => ⟨fun i s => resources_named h hfree, resources_none h hfree⟩, ?_⟩
  have hpacked : ((b.loadedSections.map Section.summary).any fun s => s.name == "UPX0") = true ↔
      ∃ s ∈ b.sections, s.name = "UPX0" := by
    rw [summaries_build, List.any_eq_true]
    constructor
    · rintro ⟨summary, hmem, hname⟩
      obtain ⟨i, hi, rfl⟩ := List.mem_mapIdx.mp hmem
      exact ⟨b.sections[i], List.getElem_mem hi, beq_iff_eq.mp hname⟩
    · rintro ⟨s, hs, hname⟩
      obtain ⟨i, hi, rfl⟩ := List.mem_iff_getElem.mp hs
      exact ⟨_, List.mem_mapIdx.mpr ⟨i, hi, rfl⟩, beq_iff_eq.mpr hname⟩
  rw [detectPacker]
  simp only [hpacked]

/-- An image with imports and with two sections that are named for resources. -/
def packedBuilder : PeBuilder :=
  ⟨.bits64, 0, 0x1040, [⟨"UPX0", [], .nothing⟩, ⟨".import1", [1, 2, 3], .imports⟩,
    ⟨".rsrc", [4, 5], .nothing⟩, ⟨".rsrc", [6], .nothing⟩]⟩

theorem built_image_read_back_packed :
    packedBuilder.Buildable ∧ ContainerKind.detect packedBuilder.build = .pe ∧
      ∃ inputs, Inputs.ofBytes packedBuilder.build = .ok inputs ∧
        inputs.header = ⟨none, 0x1040, "x64", 4⟩ ∧
        inputs.sections.map SectionSummary.name = ["UPX0", ".import1", ".rsrc", ".rsrc"] ∧
        inputs.sections.map SectionSummary.virtualAddress = [0x1000, 0x2000, 0x3000, 0x4000] ∧
        inputs.sections.map SectionSummary.rawSize = [0, 0x200, 0x200, 0x200] ∧
        inputs.imports = some ⟨#[1, 2, 3], 0x2000, 0x2000, .bits64⟩ ∧
        inputs.resources = some ⟨#[4, 5], 0x3000⟩ ∧
        detectPacker inputs.sections = some "upx" := by
  have h : packedBuilder.Buildable :=
    ⟨by decide +kernel, by decide +kernel, by decide +kernel, by decide +kernel,
      by decide +kernel⟩
  obtain ⟨hkind, inputs, hinputs, hheader, hsections, -, himports, -, -, hresources, hpacker⟩ :=
    built_image_read_back packedBuilder h
  have hnamed := (hresources (by decide +kernel)).1 2 _ rfl rfl (by decide +kernel)
  have hpacked : ∃ s ∈ packedBuilder.sections, s.name = "UPX0" := by decide +kernel
  refine ⟨h, hkind, inputs, hinputs, hheader, ?_, ?_, ?_, himports 1 _ rfl rfl, hnamed, ?_⟩
  · rw [hsections]
    rfl
  · rw [hsections]
    rfl
  · rw [hsections]
    rfl
  · rw [hpacker, if_pos hpacked]

end Hallmark.Proofs
