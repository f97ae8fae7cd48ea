import Hallmark.Elf.Image
import Hallmark.Proofs.FieldRecords
import Hallmark.Proofs.PackedPieces
import Hallmark.Proofs.StatefulRuns

/-!
# Sections of ELF images

Images made of a header, the contents of their sections and the table of section headers, in both
widths and both byte orders. The headers are read back with the places that the contents have.
-/

namespace Hallmark.Proofs
open Elf

/-- A section of an ELF image, apart from its place in the file. -/
structure ElfSection where
  name : UInt32
  kind : UInt32
  flags : UInt32
  address : UInt32
  link : UInt32
  info : UInt32
  alignment : UInt32
  entrySize : UInt32
  content : List UInt8

/-- An ELF image without program headers. Its last section holds the names of the sections. -/
structure ElfImage where
  system : UInt8
  fileType : UInt16
  machine : UInt16
  entry : UInt32
  flags : UInt32
  sections : List ElfSection

namespace ElfSection

/-- The fields of the header of a section whose content starts at `place`. -/
def fields (words : WordSize) (place : Nat) (s : ElfSection) : List Field :=
  [⟨4, s.name.toNat⟩, ⟨4, s.kind.toNat⟩, ⟨words.octets, s.flags.toNat⟩,
    ⟨words.octets, s.address.toNat⟩, ⟨words.octets, place⟩, ⟨words.octets, s.content.length⟩,
    ⟨4, s.link.toNat⟩, ⟨4, s.info.toNat⟩, ⟨words.octets, s.alignment.toNat⟩,
    ⟨words.octets, s.entrySize.toNat⟩]

def header (place : Nat) (s : ElfSection) : SectionHeader :=
  ⟨s.kind.toNat, place, s.content.length, s.link.toNat, s.info.toNat⟩

end ElfSection

/-- The octet that tells the byte order of an image. -/
def orderMark : ByteOrder → UInt8
  | .little => 1
  | .big => 2

/-- The octet that tells the width of an image. -/
def widthMark (words : WordSize) : UInt8 := words.pick 1 2

namespace ElfImage

def contents (image : ElfImage) : List UInt8 := image.sections.flatMap ElfSection.content

/-- The place of the table of section headers, behind the contents of the sections. -/
def tableAt (image : ElfImage) (words : WordSize) : Nat := headerSize words + image.contents.length

/-- The sections with the places of their contents. -/
def placedSections (image : ElfImage) (words : WordSize) : List (Nat × ElfSection) :=
  withPlaces ElfSection.content (headerSize words) image.sections

/-- The octets that identify an image and its layout. -/
def identity (image : ElfImage) (l : Layout) : List Field :=
  [⟨1, 0x7f⟩, ⟨1, 0x45⟩, ⟨1, 0x4c⟩, ⟨1, 0x46⟩, ⟨1, (widthMark l.words).toNat⟩,
    ⟨1, (orderMark l.order).toNat⟩, ⟨1, (1 : UInt8).toNat⟩, ⟨1, image.system.toNat⟩, ⟨8, 0⟩]

def header (image : ElfImage) (l : Layout) : List Field :=
  image.identity l ++
    [⟨2, image.fileType.toNat⟩, ⟨2, image.machine.toNat⟩, ⟨4, 1⟩,
      ⟨l.words.octets, image.entry.toNat⟩, ⟨l.words.octets, 0⟩,
      ⟨l.words.octets, image.tableAt l.words⟩, ⟨4, image.flags.toNat⟩, ⟨2, headerSize l.words⟩,
      ⟨2, 0⟩, ⟨2, 0⟩, ⟨2, sectionHeaderSize l.words⟩, ⟨2, image.sections.length⟩,
      ⟨2, image.sections.length - 1⟩]

def table (image : ElfImage) (l : Layout) : List UInt8 :=
  (image.placedSections l.words).flatMap fun q => fieldOctets l.order (q.2.fields l.words q.1)

def bytes (image : ElfImage) (l : Layout) : Bytes :=
  (fieldOctets l.order (image.header l) ++ (image.contents ++ image.table l)).toArray

/-- An image that a layout has room for: its places are addresses, and there are names of sections
behind the first section, which is empty. -/
structure Storable (image : ElfImage) (words : WordSize) : Prop where
  place : image.tableAt words < 256 ^ words.octets
  named : 2 ≤ image.sections.length
  count : image.sections.length < 2 ^ 16

def readHeader (image : ElfImage) (l : Layout) : Header :=
  ⟨l, 0, 0, 0, image.tableAt l.words, sectionHeaderSize l.words, image.sections.length,
    image.sections.length - 1⟩

def readSections (image : ElfImage) (words : WordSize) : List SectionHeader :=
  (image.placedSections words).map fun q => q.2.header q.1

end ElfImage

/-! ## The layout of an image -/

section Layout
variable (image : ElfImage) (l : Layout)

lemma fieldsWidth_elfHeader : fieldsWidth (image.header l) = headerSize l.words := by
  obtain ⟨words, order⟩ := l
  cases words <;>
    simp [ElfImage.header, ElfImage.identity, fieldsWidth, headerSize, WordSize.pick,
      WordSize.octets]

lemma length_sectionRecord (q : Nat × ElfSection) :
    (fieldOctets l.order (q.2.fields l.words q.1)).length = sectionHeaderSize l.words := by
  rw [length_fieldOctets]
  cases l.words <;> rfl

lemma length_sectionTable :
    (image.table l).length = image.sections.length * sectionHeaderSize l.words := by
  rw [ElfImage.table, length_flatMap_of_width (length_sectionRecord l), ElfImage.placedSections,
    length_withPlaces]

lemma elfHeader_placed : Placed (image.bytes l) 0 (fieldOctets l.order (image.header l)) :=
  (Placed.self (image.bytes l)).left

lemma contents_placed : Placed (image.bytes l) (headerSize l.words) image.contents := by
  have hplaced := (Placed.self (image.bytes l)).right.left
  rwa [length_fieldOctets, fieldsWidth_elfHeader, Nat.zero_add] at hplaced

lemma sectionTable_placed : Placed (image.bytes l) (image.tableAt l.words) (image.table l) := by
  have hplaced := (Placed.self (image.bytes l)).right.right
  rwa [length_fieldOctets, fieldsWidth_elfHeader, Nat.zero_add] at hplaced

lemma readSections_length (words : WordSize) :
    (image.readSections words).length = image.sections.length := by
  rw [ElfImage.readSections, List.length_map, ElfImage.placedSections, length_withPlaces]

variable {image l} {place : Nat} {s : ElfSection}

lemma content_placed (hmem : (place, s) ∈ image.placedSections l.words) :
    Placed (image.bytes l) place s.content := by
  have hcontents := contents_placed image l
  rw [← Nat.zero_add (headerSize l.words)] at hcontents
  have hplaced := placed_withPlaces hcontents hmem
  rwa [Nat.zero_add] at hplaced

lemma content_le_tableAt {words : WordSize} (hmem : (place, s) ∈ image.placedSections words) :
    place + s.content.length ≤ image.tableAt words :=
  withPlaces_inside hmem

end Layout

/-! ## Reading an image -/

section Reading
variable {image : ElfImage} {l : Layout}

/-- The first octets of an image tell its width. -/
lemma kind_elf : FileKind.ofBytes (image.bytes l) = .ok (.elf l.words) := by
  have hsize : ¬(image.bytes l).size < 16 := by
    have hheader := (elfHeader_placed image l).le_size
    rw [length_fieldOctets, fieldsWidth_elfHeader] at hheader
    cases hwords : l.words <;> rw [hwords] at hheader <;>
      simp [headerSize, WordSize.pick] at hheader <;> omega
  have hdata : (image.bytes l).toList = [0x7f, 0x45, 0x4c, 0x46, widthMark l.words] ++
      (fieldOctets l.order ((image.header l).drop 5) ++ (image.contents ++ image.table l)) := by
    have hstart : fieldOctets l.order ((image.header l).take 5) =
        [0x7f, 0x45, 0x4c, 0x46, widthMark l.words] := by
      obtain ⟨words, order⟩ := l
      cases words <;> cases order <;> rfl
    rw [← hstart, ← List.append_assoc, ← fieldOctets_append, List.take_append_drop]
    rfl
  generalize fieldOctets l.order ((image.header l).drop 5) ++ (image.contents ++ image.table l) =
    rest at hdata
  obtain ⟨words, order⟩ := l
  cases words <;>
    simp [FileKind.ofBytes, FileKind.magics, hasAt_start, hdata, hsize, widthMark, WordSize.pick]

/-- Where the header says what is in the file, in both widths. -/
lemma fieldAt_elfHeader (image : ElfImage) (l : Layout) :
    fieldAt? (image.header l) (l.pick 28 32) = some ⟨l.words.octets, 0⟩ ∧
      fieldAt? (image.header l) (l.pick 32 40) = some ⟨l.words.octets, image.tableAt l.words⟩ ∧
      fieldAt? (image.header l) (l.pick 42 54) = some ⟨2, 0⟩ ∧
      fieldAt? (image.header l) (l.pick 44 56) = some ⟨2, 0⟩ ∧
      fieldAt? (image.header l) (l.pick 46 58) = some ⟨2, sectionHeaderSize l.words⟩ ∧
      fieldAt? (image.header l) (l.pick 48 60) = some ⟨2, image.sections.length⟩ ∧
      fieldAt? (image.header l) (l.pick 50 62) = some ⟨2, image.sections.length - 1⟩ := by
  obtain ⟨words, order⟩ := l
  cases words <;> exact ⟨rfl, rfl, rfl, rfl, rfl, rfl, rfl⟩

lemma header_elf (h : image.Storable l.words) :
    Header.ofBytes l.words (image.bytes l) = .ok (image.readHeader l) := by
  have hheader := (elfHeader_placed image l).record
  rw [fieldsWidth_elfHeader] at hheader
  have hmark : (fieldOctets l.order (image.header l)).toArray.getD 5 0 = orderMark l.order :=
    octet_record l.order (b := orderMark l.order) rfl
  have hversion : (fieldOctets l.order (image.header l)).toArray.getD 6 0 = 1 :=
    octet_record l.order (b := 1) rfl
  have hcount := h.count
  have hsize : sectionHeaderSize l.words < 2 ^ 16 := by cases l.words <;> decide
  obtain ⟨hsegments, hplace, hsegment, hsegmentCount, hentry, hentries, hnames⟩ :=
    fieldAt_elfHeader image l
  have hsegments := number_record l hsegments (Nat.pow_pos (by decide))
  have hplace := number_record l hplace h.place
  have hsegment := number_record l hsegment (by decide)
  have hsegmentCount := number_record l hsegmentCount (by decide)
  have hentry := number_record l hentry hsize
  have hentries := number_record l hentries hcount
  have hnames := number_record l hnames (show _ < 2 ^ 16 by omega)
  obtain ⟨words, order⟩ := l
  cases order <;>
    · rw [Header.ofBytes, hheader]
      simp only [hmark, hversion, orderMark, Layout.address, pure_bind, hsegments, hplace, hsegment,
        hsegmentCount, hentry, hentries, hnames]
      rfl

lemma checkProgramHeaders_elf :
    (image.readHeader l).checkProgramHeaders (image.bytes l) = .ok () := rfl

/-- A row of the table is read as the header of its section. -/
lemma ofRecord_section (h : image.Storable l.words) {place : Nat} {s : ElfSection}
    (hmem : (place, s) ∈ image.placedSections l.words) :
    SectionHeader.ofRecord l (fieldOctets l.order (s.fields l.words place)).toArray =
      s.header place := by
  have hinside := content_le_tableAt hmem
  have hroom := h.place
  have hkind : fieldAt? (s.fields l.words place) 4 = some ⟨4, s.kind.toNat⟩ := rfl
  have hplaces : fieldAt? (s.fields l.words place) (l.pick 16 24) = some ⟨l.words.octets, place⟩ ∧
      fieldAt? (s.fields l.words place) (l.pick 20 32) =
        some ⟨l.words.octets, s.content.length⟩ ∧
      fieldAt? (s.fields l.words place) (l.pick 24 40) = some ⟨4, s.link.toNat⟩ ∧
      fieldAt? (s.fields l.words place) (l.pick 28 44) = some ⟨4, s.info.toNat⟩ := by
    obtain ⟨words, order⟩ := l
    cases words <;> exact ⟨rfl, rfl, rfl, rfl⟩
  obtain ⟨hat, hlength, hlink, hinfo⟩ := hplaces
  simp only [SectionHeader.ofRecord, Layout.word, Layout.address,
    number_record l hkind s.kind.toNat_lt, number_record l hat (show place < _ by omega),
    number_record l hlength (show s.content.length < _ by omega),
    number_record l hlink s.link.toNat_lt, number_record l hinfo s.info.toNat_lt]
  rfl

/-- The section headers are read back with the places of the contents. -/
lemma sections_elf (h : image.Storable l.words) :
    (image.readHeader l).sections (image.bytes l) = .ok (image.readSections l.words) := by
  have hplace : (image.readHeader l).sectionOffset ≠ 0 := by
    cases hwords : l.words <;>
      simp [ElfImage.readHeader, ElfImage.tableAt, headerSize, hwords, WordSize.pick]
  have hnamed := h.named
  have hcount : (image.readHeader l).sectionHeaderCount (image.bytes l) =
      .ok image.sections.length := by
    have hpos : 0 < (image.readHeader l).sectionCount := Nat.lt_of_lt_of_le (by decide) hnamed
    rw [Header.sectionHeaderCount, if_pos hpos]
    rfl
  have hrange := (sectionTable_placed image l).range?
  rw [length_sectionTable] at hrange
  have hrecords := records_flatMap (length_sectionRecord l) (image.placedSections l.words)
  rw [ElfImage.placedSections, length_withPlaces] at hrecords
  rw [Header.sections, if_neg hplace, hcount, except_ok_bind,
    if_neg (show image.sections.length ≠ 0 by omega)]
  simp only [ElfImage.readHeader, ne_eq, not_true_eq_false, if_false, hrange]
  rw [ElfImage.table, ElfImage.placedSections, hrecords, List.map_map]
  exact congrArg Except.ok (List.map_congr_left fun q hq => ofRecord_section h hq)

lemma checkSectionNames_elf (h : image.Storable l.words) :
    (image.readHeader l).checkSectionNames (image.bytes l) (image.readSections l.words) =
      .ok () := by
  have hnamed := h.named
  have hcount := h.count
  have hlength := readSections_length image l.words
  have hsome : (image.readSections l.words).isEmpty = false := by
    rw [List.isEmpty_eq_false_iff, ← List.length_pos_iff]
    omega
  have hindex : image.sections.length - 1 < (image.readSections l.words).length := by omega
  have hread : (image.readSections l.words)[image.sections.length - 1]? =
      some (image.readSections l.words)[image.sections.length - 1] := List.getElem?_eq_getElem hindex
  have hmem := List.getElem_mem hindex
  generalize (image.readSections l.words)[image.sections.length - 1] = names at hread hmem
  obtain ⟨⟨place, s⟩, hq, rfl⟩ := List.mem_map.mp hmem
  have hinside := content_le_tableAt hq
  have hroom := h.place
  have hbig : 256 ^ l.words.octets ≤ UInt64.size := by cases l.words <;> decide
  have hfits : ¬UInt64.size ≤ (s.header place).offset + (s.header place).size := by
    simp only [ElfSection.header]
    omega
  have hescape : ¬image.sections.length - 1 = escapeCount := by
    rw [escapeCount]
    omega
  have hfirst : ¬image.sections.length - 1 = 0 := by omega
  simp only [Header.checkSectionNames, hsome, ElfImage.readHeader, Bool.not_false, if_true, hescape,
    if_false, pure_bind, hfirst, hread, hfits, and_false]
  rfl

/-- The header of a section is found at the index of the section. -/
lemma readSections_getElem? (words : WordSize) {i : Nat} {s : ElfSection}
    (hs : image.sections[i]? = some s) :
    ∃ place, (image.readSections words)[i]? = some (s.header place) ∧
      (place, s) ∈ image.placedSections words := by
  have hmap : ((image.placedSections words).map Prod.snd)[i]? = some s := by
    rw [ElfImage.placedSections, map_withPlaces, hs]
  rw [List.getElem?_map, Option.map_eq_some_iff] at hmap
  obtain ⟨⟨place, s⟩, hq, rfl⟩ := hmap
  refine ⟨place, ?_, List.mem_of_getElem? hq⟩
  rw [ElfImage.readSections, List.getElem?_map, hq, Option.map_some]

lemma findIdx_readSections (image : ElfImage) (words : WordSize) (kind : Nat) :
    (image.readSections words).findIdx? (fun s => s.kind = kind) =
      image.sections.findIdx? fun s => s.kind.toNat = kind := by
  have hsections : image.sections = (image.placedSections words).map Prod.snd := by
    rw [ElfImage.placedSections, map_withPlaces]
  rw [hsections, ElfImage.readSections, List.findIdx?_map, List.findIdx?_map]
  rfl

lemma image_elf (h : image.Storable l.words) :
    Elf.Image.ofBytes l.words (image.bytes l) = do
      let (static, index) ←
        symbolTable l (image.bytes l) (image.readSections l.words) symbolTableKind
      let (dynamic, _) ←
        symbolTable l (image.bytes l) (image.readSections l.words) dynamicSymbolsKind
      checkRelocations (image.readSections l.words) index
      return ⟨l, static, dynamic⟩ := by
  rw [Elf.Image.ofBytes, header_elf h, except_ok_bind, checkProgramHeaders_elf, except_ok_bind,
    sections_elf h, except_ok_bind, checkSectionNames_elf h, except_ok_bind]
  rfl

end Reading

end Hallmark.Proofs
