import Hallmark.Pe.Image
import Hallmark.Proofs.PackedPieces
import Hallmark.Proofs.PatchedBuffers
import Mathlib.Algebra.Order.BigOperators.Group.List

/-!
# PE images that are built for tests

A writer of small PE images: a buffer of zeros for the headers, into which the facts of the image, a
row for each section and the places of the import table and of the resource tree are written, and the
content of the sections behind it.
-/

namespace Hallmark.Proofs

/-! ## The writer -/

/-- The structure that a section holds. -/
inductive HeldStructure where
  | nothing
  | imports
  | resources
  deriving DecidableEq

structure BuiltSection where
  name : String
  data : List UInt8
  holds : HeldStructure

structure PeBuilder where
  words : WordSize
  timestamp : UInt32
  entrypoint : UInt32
  sections : List BuiltSection

/-- The least multiple of the file alignment that is not below `n`. -/
def alignFile (n : Nat) : Nat := (n + 0x1ff) / 0x200 * 0x200

/-- The address of the section with the given number. -/
def sectionAddress (i : Nat) : Nat := 0x1000 * (i + 1)

namespace HeldStructure

/-- The number of the directory for a structure. -/
def slot? : HeldStructure → Option Nat
  | nothing => none
  | imports => some 1
  | resources => some 2

end HeldStructure

namespace BuiltSection

def rawSize (s : BuiltSection) : Nat := alignFile s.data.length

/-- What the file holds for a section. -/
def raw (s : BuiltSection) : List UInt8 := s.data ++ zeros (s.rawSize - s.data.length)

end BuiltSection

/-- The place of the headers, behind the header for an older system. -/
def headersAt : Nat := 0x40

def optionalHeaderAt : Nat := headersAt + 24

def directoriesAt (words : WordSize) : Nat := optionalHeaderAt + words.pick 96 112

def sectionTableAt (words : WordSize) : Nat := optionalHeaderAt + words.pick 224 240

/-- What is written to the row of a section. -/
def rowWrites (words : WordSize) (i rawOffset : Nat) (s : BuiltSection) : List (Nat × List UInt8) :=
  let row := sectionTableAt words + 40 * i
  [(row, (Bytes.ofString s.name).toList), (row + 8, littleOctets 4 s.data.length),
    (row + 12, littleOctets 4 (sectionAddress i)), (row + 16, littleOctets 4 s.rawSize),
    (row + 20, littleOctets 4 rawOffset), (row + 36, littleOctets 4 0x40000040)]

/-- What is written to the directory for what a section holds. -/
def directoryWrites (words : WordSize) (i : Nat) (s : BuiltSection) : List (Nat × List UInt8) :=
  match s.holds.slot? with
  | some slot =>
    [(directoriesAt words + slot * 8, littleOctets 4 (sectionAddress i)),
      (directoriesAt words + slot * 8 + 4, littleOctets 4 s.data.length)]
  | none => []

def sectionWrites (words : WordSize) (i rawOffset : Nat) (s : BuiltSection) :
    List (Nat × List UInt8) :=
  rowWrites words i rawOffset s ++ directoryWrites words i s

/-- What is written for sections that are numbered from `i` on and whose content starts at
`rawOffset`. -/
def writesFrom (words : WordSize) :
    (i rawOffset : Nat) → List BuiltSection → List (Nat × List UInt8)
  | _, _, [] => []
  | i, rawOffset, s :: sections =>
    sectionWrites words i rawOffset s ++ writesFrom words (i + 1) (rawOffset + s.rawSize) sections

namespace PeBuilder

def headersSize (b : PeBuilder) : Nat :=
  alignFile (sectionTableAt b.words + 40 * b.sections.length)

/-- What is written about the image as a whole. -/
def headerWrites (b : PeBuilder) : List (Nat × List UInt8) :=
  let file := headersAt + 4
  let optional := optionalHeaderAt
  [(0, [0x4d]), (1, [0x5a]), (0x3c, littleOctets 4 headersAt), (headersAt, [0x50, 0x45, 0, 0]),
    (file, littleOctets 2 (b.words.pick 0x14c 0x8664)),
    (file + 2, littleOctets 2 b.sections.length), (file + 4, littleOctets 4 b.timestamp.toNat),
    (file + 16, littleOctets 2 (b.words.pick 224 240)), (file + 18, littleOctets 2 0x102),
    (optional, littleOctets 2 (b.words.pick 0x10b 0x20b)),
    (optional + 16, littleOctets 4 b.entrypoint.toNat), (optional + 32, littleOctets 4 0x1000),
    (optional + 36, littleOctets 4 0x200), (optional + 40, littleOctets 2 6),
    (optional + 48, littleOctets 2 6),
    (optional + 56, littleOctets 4 (sectionAddress b.sections.length)),
    (optional + 60, littleOctets 4 b.headersSize), (optional + 68, littleOctets 2 3)] ++
  b.words.pick
    [(optional + 28, littleOctets 4 0x400000), (optional + 92, littleOctets 4 16)]
    [(optional + 24, littleOctets 8 0x140000000), (optional + 108, littleOctets 4 16)]

def writes (b : PeBuilder) : List (Nat × List UInt8) :=
  b.headerWrites ++ writesFrom b.words 0 b.headersSize b.sections

def headers (b : PeBuilder) : List UInt8 := patched (zeros b.headersSize) b.writes

/-- The sections with the places of their content. -/
def placedSections (b : PeBuilder) : List (Nat × BuiltSection) :=
  withPlaces BuiltSection.raw b.headersSize b.sections

/-- The image that is built. -/
def build (b : PeBuilder) : Bytes := (b.headers ++ b.sections.flatMap BuiltSection.raw).toArray

/-- What the builder can be asked for: the names fit into the rows, the sections fit between two
addresses, and no two sections hold the same structure. -/
structure Buildable (b : PeBuilder) : Prop where
  count : b.sections.length ≤ 65535
  names : ∀ s ∈ b.sections, '\x00' ∉ s.name.toList ∧ (Bytes.ofString s.name).size ≤ 8
  data : ∀ s ∈ b.sections, s.data.length ≤ 0x1000
  held : ∀ s ∈ b.sections, s.holds ≠ .nothing → s.data ≠ []
  distinct : b.sections.Pairwise fun s t => s.holds = .nothing ∨ s.holds ≠ t.holds

end PeBuilder

/-! ## Where the writes are -/

/-- The places and lengths of what is written about the image as a whole. -/
def headerSpans (words : WordSize) : List (Nat × Nat) :=
  [(0, 1), (1, 1), (0x3c, 4), (0x40, 4), (0x44, 2), (0x46, 2), (0x48, 4), (0x54, 2), (0x56, 2),
    (0x58, 2), (0x68, 4), (0x78, 4), (0x7c, 4), (0x80, 2), (0x88, 2), (0x90, 4), (0x94, 4),
    (0x9c, 2)] ++ words.pick [(0x74, 4), (0xb4, 4)] [(0x70, 8), (0xc4, 4)]

lemma map_span_headerWrites (b : PeBuilder) :
    b.headerWrites.map span = headerSpans b.words := by
  cases hwords : b.words <;>
    simp [PeBuilder.headerWrites, hwords, WordSize.pick, span, length_littleOctets, headersAt,
      optionalHeaderAt, headerSpans]

lemma headerWrites_apart (b : PeBuilder) :
    b.headerWrites.Pairwise fun w w' => Apart (span w) (span w') := by
  rw [← List.pairwise_map, map_span_headerWrites]
  cases b.words <;> decide

/-- What is written about the image as a whole stands in front of the directories. -/
lemma headerWrites_before {b : PeBuilder} {w : Nat × List UInt8} (hw : w ∈ b.headerWrites) :
    w.1 + w.2.length ≤ directoriesAt b.words := by
  have hspan := List.mem_map_of_mem (f := span) hw
  rw [map_span_headerWrites] at hspan
  have hbefore : ∀ p ∈ headerSpans b.words, p.1 + p.2 ≤ directoriesAt b.words := by
    cases b.words <;> decide
  exact hbefore (span w) hspan

/-- The run of octets lies in the row of the section with the given number. -/
def InRow (words : WordSize) (i : Nat) (p : Nat × Nat) : Prop :=
  sectionTableAt words + 40 * i ≤ p.1 ∧ p.1 + p.2 ≤ sectionTableAt words + 40 * i + 40

/-- The run of octets lies in the directory with the given number. -/
def InSlot (words : WordSize) (slot : Nat) (p : Nat × Nat) : Prop :=
  directoriesAt words + slot * 8 ≤ p.1 ∧ p.1 + p.2 ≤ directoriesAt words + slot * 8 + 8

lemma sectionTableAt_eq (words : WordSize) : sectionTableAt words = directoriesAt words + 128 := by
  cases words <;> rfl

section Regions
variable {words : WordSize} {i j slot slot' rawOffset : Nat} {p q : Nat × Nat}
  {s : BuiltSection} {sections : List BuiltSection} {w : Nat × List UInt8}

lemma InRow.apart (hp : InRow words i p) (hq : InRow words j q) (hne : i ≠ j) : Apart p q := by
  unfold InRow at hp hq
  unfold Apart
  omega

lemma InSlot.apart (hp : InSlot words slot p) (hq : InSlot words slot' q) (hne : slot ≠ slot') :
    Apart p q := by
  unfold InSlot at hp hq
  unfold Apart
  omega

lemma InSlot.apart_row (hp : InSlot words slot p) (hslot : slot < 16) (hq : InRow words i q) :
    Apart p q := by
  have htable := sectionTableAt_eq words
  unfold InSlot at hp
  unfold InRow at hq
  unfold Apart
  omega

lemma slot?_lt {h : HeldStructure} (hslot : h.slot? = some slot) : slot < 16 := by
  cases h <;> simp [HeldStructure.slot?] at hslot <;> omega

lemma slot?_inj {h h' : HeldStructure} (hslot : h.slot? = some slot) (hslot' : h'.slot? = some slot) :
    h = h' := by
  rw [← hslot'] at hslot
  cases h <;> cases h' <;> first | rfl | cases hslot

lemma slot?_ne_nothing {h : HeldStructure} (hslot : h.slot? = some slot) : h ≠ .nothing := by
  rintro rfl
  cases hslot

lemma directoryWrites_where (hw : w ∈ directoryWrites words i s) :
    ∃ slot, s.holds.slot? = some slot ∧ InSlot words slot (span w) := by
  rw [directoryWrites] at hw
  cases hslot : s.holds.slot? with
  | none => simp [hslot] at hw
  | some slot =>
    simp only [hslot, List.mem_cons, List.not_mem_nil, or_false] at hw
    refine ⟨slot, rfl, ?_⟩
    rcases hw with rfl | rfl <;> simp [InSlot, span, length_littleOctets]

lemma sectionWrites_where (hname : (Bytes.ofString s.name).size ≤ 8)
    (hw : w ∈ sectionWrites words i rawOffset s) :
    InRow words i (span w) ∨ ∃ slot, s.holds.slot? = some slot ∧ InSlot words slot (span w) := by
  rcases List.mem_append.mp hw with hrow | hdirectory
  · left
    simp only [rowWrites, List.mem_cons, List.not_mem_nil, or_false] at hrow
    rcases hrow with rfl | rfl | rfl | rfl | rfl | rfl <;>
      (simp [InRow, span, length_littleOctets]; try omega)
  · exact .inr (directoryWrites_where hdirectory)

lemma writesFrom_where (hnames : ∀ s ∈ sections, (Bytes.ofString s.name).size ≤ 8)
    (hw : w ∈ writesFrom words i rawOffset sections) :
    (∃ j, i ≤ j ∧ j < i + sections.length ∧ InRow words j (span w)) ∨
      ∃ s ∈ sections, ∃ slot, s.holds.slot? = some slot ∧ InSlot words slot (span w) := by
  induction sections generalizing i rawOffset with
  | nil => cases hw
  | cons s sections ih =>
    obtain ⟨hname, hnames⟩ := List.forall_mem_cons.mp hnames
    rw [writesFrom, List.mem_append] at hw
    rw [List.length_cons]
    rcases hw with hfirst | hlater
    · rcases sectionWrites_where hname hfirst with hrow | hslot
      · exact .inl ⟨i, by omega, by omega, hrow⟩
      · exact .inr ⟨s, List.mem_cons_self, hslot⟩
    · rcases ih hnames hlater with ⟨j, hfrom, hto, hrow⟩ | ⟨t, ht, hslot⟩
      · exact .inl ⟨j, by omega, by omega, hrow⟩
      · exact .inr ⟨t, List.mem_cons_of_mem s ht, hslot⟩

lemma sectionWrites_apart (hname : (Bytes.ofString s.name).size ≤ 8) :
    (sectionWrites words i rawOffset s).Pairwise fun w w' => Apart (span w) (span w') := by
  have htable := sectionTableAt_eq words
  cases hholds : s.holds <;>
    simp [sectionWrites, rowWrites, directoryWrites, hholds, HeldStructure.slot?, span, Apart,
      length_littleOctets] <;> omega

/-- What is written for different sections is apart when no two hold the same structure. -/
lemma writesFrom_apart (hnames : ∀ s ∈ sections, (Bytes.ofString s.name).size ≤ 8)
    (hdistinct : sections.Pairwise fun s t => s.holds = .nothing ∨ s.holds ≠ t.holds) :
    (writesFrom words i rawOffset sections).Pairwise fun w w' => Apart (span w) (span w') := by
  induction sections generalizing i rawOffset with
  | nil => exact List.Pairwise.nil
  | cons s sections ih =>
    obtain ⟨hname, hnames⟩ := List.forall_mem_cons.mp hnames
    obtain ⟨hfirst, hdistinct⟩ := List.pairwise_cons.mp hdistinct
    rw [writesFrom, List.pairwise_append]
    refine ⟨sectionWrites_apart hname, ih hnames hdistinct, ?_⟩
    intro w hw w' hw'
    -- Rows are apart by their numbers, rows and directories by their places, and two directories
    -- because no structure is held twice.
    rcases sectionWrites_where hname hw with hrow | ⟨slot, hslot, hin⟩ <;>
      rcases writesFrom_where hnames hw' with ⟨j, hj, -, hrow'⟩ | ⟨t, ht, slot', hslot', hin'⟩
    · exact hrow.apart hrow' (by omega)
    · exact (hin'.apart_row (slot?_lt hslot') hrow).symm
    · exact hin.apart_row (slot?_lt hslot) hrow'
    · refine hin.apart hin' ?_
      rintro rfl
      rcases hfirst t ht with hnothing | hne
      · exact slot?_ne_nothing hslot hnothing
      · exact hne (slot?_inj hslot hslot')

end Regions

/-! ## What the headers hold -/

section Headers
variable {b : PeBuilder} {i place : Nat} {s : BuiltSection} {piece : List UInt8}

lemma le_alignFile (n : Nat) : n ≤ alignFile n := by
  unfold alignFile
  omega

lemma table_le_headersSize (b : PeBuilder) :
    sectionTableAt b.words + 40 * b.sections.length ≤ b.headersSize := le_alignFile _

lemma writes_inside (h : b.Buildable) {w : Nat × List UInt8} (hw : w ∈ b.writes) :
    w.1 + w.2.length ≤ (zeros b.headersSize).length := by
  have htable := sectionTableAt_eq b.words
  have hsize := table_le_headersSize b
  rw [length_zeros]
  rcases List.mem_append.mp hw with hheader | hsection
  · have hbefore := headerWrites_before hheader
    omega
  · rcases writesFrom_where (fun s hs => (h.names s hs).2) hsection with
      ⟨j, -, hj, hrow⟩ | ⟨t, -, slot, hslot, hin⟩
    · have hstop : w.1 + w.2.length ≤ sectionTableAt b.words + 40 * j + 40 := hrow.2
      omega
    · have hstop : w.1 + w.2.length ≤ directoriesAt b.words + slot * 8 + 8 := hin.2
      have hlt := slot?_lt hslot
      omega

lemma writes_apart (h : b.Buildable) :
    b.writes.Pairwise fun w w' => Apart (span w) (span w') := by
  have htable := sectionTableAt_eq b.words
  have hnames : ∀ s ∈ b.sections, (Bytes.ofString s.name).size ≤ 8 := fun s hs => (h.names s hs).2
  rw [PeBuilder.writes, List.pairwise_append]
  refine ⟨headerWrites_apart b, writesFrom_apart hnames h.distinct, ?_⟩
  intro w hw w' hw'
  left
  have hbefore : (span w).1 + (span w).2 ≤ directoriesAt b.words := headerWrites_before hw
  rcases writesFrom_where hnames hw' with ⟨j, -, -, hrow⟩ | ⟨t, -, slot, -, hin⟩
  · have hstart := hrow.1
    omega
  · have hstart := hin.1
    omega

lemma length_headers (h : b.Buildable) : b.headers.length = b.headersSize := by
  rw [PeBuilder.headers, length_patched fun w hw => writes_inside h hw, length_zeros]

lemma written_placed (h : b.Buildable) (hw : (place, piece) ∈ b.writes) :
    Placed b.build place piece := by
  have hplaced := placed_patched (fun w hw => writes_inside h hw) (writes_apart h) hw
  exact hplaced.append_right _

lemma zeros_placed (h : b.Buildable) {n : Nat} (hin : place + n ≤ b.headersSize)
    (hapart : ∀ w ∈ b.writes, Apart (place, n) (span w)) : Placed b.build place (zeros n) := by
  have hzeros : Placed (zeros b.headersSize).toArray place (zeros n) := by
    refine ⟨zeros place, zeros (b.headersSize - (place + n)), ?_, length_zeros place⟩
    rw [List.toList_toArray, ← zeros_add, ← zeros_add]
    congr 1
    omega
  have hkept := hzeros.patched (fun w hw => writes_inside h hw)
    (by rwa [length_zeros])
  exact hkept.append_right _

lemma length_raw (s : BuiltSection) : s.raw.length = s.rawSize := by
  have hle : s.data.length ≤ s.rawSize := le_alignFile _
  rw [BuiltSection.raw, List.length_append, length_zeros]
  omega

/-- What is written about a section, with the place of its content. -/
lemma sectionWrites_mem {words : WordSize} {k start rawOffset : Nat}
    {sections : List BuiltSection} {w : Nat × List UInt8}
    (hs : (withPlaces BuiltSection.raw rawOffset sections)[i]? = some (start, s))
    (hw : w ∈ sectionWrites words (k + i) start s) : w ∈ writesFrom words k rawOffset sections := by
  induction sections generalizing i k rawOffset with
  | nil => cases hs
  | cons t sections ih =>
    rw [withPlaces, length_raw] at hs
    rw [writesFrom, List.mem_append]
    cases i with
    | zero =>
      cases hs
      exact .inl hw
    | succ i =>
      rw [Nat.add_comm i, ← Nat.add_assoc] at hw
      exact .inr (ih hs hw)

lemma getElem?_placedSections {start : Nat} (hs : b.placedSections[i]? = some (start, s)) :
    b.sections[i]? = some s := by
  have hmap := congrArg (Option.map Prod.snd) hs
  rwa [← List.getElem?_map, PeBuilder.placedSections, map_withPlaces] at hmap

lemma length_placedSections (b : PeBuilder) : b.placedSections.length = b.sections.length :=
  length_withPlaces _ _

lemma rawSize_le (h : b.Buildable) (hs : s ∈ b.sections) : s.rawSize ≤ 0x1000 := by
  have hdata := h.data s hs
  unfold BuiltSection.rawSize alignFile
  omega

lemma length_contents (h : b.Buildable) :
    (b.sections.flatMap BuiltSection.raw).length ≤ 65535 * 0x1000 := by
  have hsizes : ∀ n ∈ b.sections.map BuiltSection.rawSize, n ≤ 0x1000 := by
    intro n hn
    obtain ⟨s, hs, rfl⟩ := List.mem_map.mp hn
    exact rawSize_le h hs
  have hsum := List.sum_le_card_nsmul _ _ hsizes
  have hcount := h.count
  rw [List.length_map, Nat.nsmul_eq_mul] at hsum
  rw [List.length_flatMap]
  simp only [length_raw]
  calc (b.sections.map BuiltSection.rawSize).sum ≤ b.sections.length * 0x1000 := hsum
    _ ≤ 65535 * 0x1000 := Nat.mul_le_mul_right _ hcount

lemma content_built (h : b.Buildable) {start : Nat}
    (hs : b.placedSections[i]? = some (start, s)) :
    Placed b.build start s.data ∧ start < 2 ^ 32 := by
  have hmem := List.mem_of_getElem? hs
  have hcontents : Placed b.build (0 + b.headersSize) (b.sections.flatMap BuiltSection.raw) := by
    refine ⟨b.headers, [], ?_, ?_⟩
    · rw [PeBuilder.build, List.append_nil]
    · rw [length_headers h, Nat.zero_add]
  have hplaced := placed_withPlaces hcontents hmem
  rw [Nat.zero_add] at hplaced
  have hinside := withPlaces_inside hmem
  have hlength := length_contents h
  have hcount := h.count
  have hheaders : b.headersSize < 2 ^ 24 := by
    unfold PeBuilder.headersSize alignFile sectionTableAt optionalHeaderAt headersAt
    cases b.words <;> simp only [WordSize.pick] <;> omega
  exact ⟨hplaced.left, by omega⟩

lemma section_placed (h : b.Buildable) {start : Nat}
    (hs : b.placedSections[i]? = some (start, s))
    (hw : (place, piece) ∈ sectionWrites b.words i start s) : Placed b.build place piece := by
  refine written_placed h (List.mem_append_right _ (sectionWrites_mem hs ?_))
  rwa [Nat.zero_add]

/-- The rest of the name in a row, which holds zeros. -/
def nameRest (words : WordSize) (i : Nat) (s : BuiltSection) : Nat × Nat :=
  (sectionTableAt words + 40 * i + (Bytes.ofString s.name).size, 8 - (Bytes.ofString s.name).size)

lemma inRow_nameRest {words : WordSize} (hname : (Bytes.ofString s.name).size ≤ 8) :
    InRow words i (nameRest words i s) := by
  unfold InRow nameRest
  omega

lemma nameRest_apart_own {words : WordSize} {rawOffset : Nat} {w : Nat × List UInt8}
    (hname : (Bytes.ofString s.name).size ≤ 8) (hw : w ∈ sectionWrites words i rawOffset s) :
    Apart (nameRest words i s) (span w) := by
  rcases List.mem_append.mp hw with hrow | hdirectory
  · simp only [rowWrites, List.mem_cons, List.not_mem_nil, or_false] at hrow
    unfold Apart nameRest
    rcases hrow with rfl | rfl | rfl | rfl | rfl | rfl <;> (simp [span]; try omega)
  · obtain ⟨slot, hslot, hin⟩ := directoryWrites_where hdirectory
    exact (hin.apart_row (slot?_lt hslot) (inRow_nameRest hname)).symm

lemma nameRest_apart {words : WordSize} {k rawOffset : Nat} {sections : List BuiltSection}
    (hnames : ∀ s ∈ sections, (Bytes.ofString s.name).size ≤ 8) (hs : sections[i]? = some s)
    {w : Nat × List UInt8} (hw : w ∈ writesFrom words k rawOffset sections) :
    Apart (nameRest words (k + i) s) (span w) := by
  induction sections generalizing i k rawOffset with
  | nil => cases hs
  | cons t sections ih =>
    obtain ⟨hfirst, hrest⟩ := List.forall_mem_cons.mp hnames
    have hrange : InRow words (k + i) (nameRest words (k + i) s) :=
      inRow_nameRest (hnames s (List.mem_of_getElem? hs))
    rw [writesFrom, List.mem_append] at hw
    cases i with
    | zero =>
      cases hs
      rcases hw with hown | hlater
      · exact nameRest_apart_own hfirst hown
      · rcases writesFrom_where hrest hlater with ⟨j, hj, -, hrow⟩ | ⟨t, -, slot, hslot, hin⟩
        · exact hrange.apart hrow (by omega)
        · exact (hin.apart_row (slot?_lt hslot) hrange).symm
    | succ i =>
      rcases hw with hother | hlater
      · rcases sectionWrites_where hfirst hother with hrow | ⟨slot, hslot, hin⟩
        · exact hrange.apart hrow (by omega)
        · exact (hin.apart_row (slot?_lt hslot) hrange).symm
      · have happart := ih (k := k + 1) hrest hs hlater
        rwa [Nat.add_right_comm] at happart

/-- The row of a section starts with its name and zeros. -/
lemma name_placed (h : b.Buildable) {start : Nat}
    (hs : b.placedSections[i]? = some (start, s)) :
    Placed b.build (sectionTableAt b.words + 40 * i)
      ((Bytes.ofString s.name).toList ++ zeros (8 - (Bytes.ofString s.name).size)) := by
  have hsection := getElem?_placedSections hs
  have hsize := (h.names s (List.mem_of_getElem? hsection)).2
  refine (section_placed h hs (List.mem_append_left _ List.mem_cons_self)).append ?_
  rw [Array.length_toList]
  refine zeros_placed h ?_ fun w hw => ?_
  · have htable := table_le_headersSize b
    have hi := (List.getElem?_eq_some_iff.mp hsection).1
    omega
  rcases List.mem_append.mp hw with hheader | hrow
  · have hbefore := headerWrites_before hheader
    have htable := sectionTableAt_eq b.words
    right
    dsimp only [span]
    omega
  · have happart := nameRest_apart (fun s hs => (h.names s hs).2) hsection hrow
    rwa [Nat.zero_add] at happart

/-- The directory for what no section holds is empty. -/
lemma slot_empty (h : b.Buildable) {slot : Nat} (hslot : slot < 16)
    (hfree : ∀ s ∈ b.sections, s.holds.slot? ≠ some slot) :
    Placed b.build (directoriesAt b.words + slot * 8) (zeros 8) := by
  have htable := sectionTableAt_eq b.words
  have hsize := table_le_headersSize b
  have hin : InSlot b.words slot (directoriesAt b.words + slot * 8, 8) :=
      ⟨Nat.le_refl _, Nat.le_refl _⟩
  refine zeros_placed h (by omega) fun w hw => ?_
  rcases List.mem_append.mp hw with hheader | hsection
  · have hbefore := headerWrites_before hheader
    right
    dsimp only [span]
    omega
  · rcases writesFrom_where (fun s hs => (h.names s hs).2) hsection with
      ⟨j, -, -, hrow⟩ | ⟨t, ht, slot', hslot', hin'⟩
    · exact hin.apart_row hslot hrow
    · refine hin.apart hin' ?_
      rintro rfl
      exact hfree t ht hslot'

end Headers

end Hallmark.Proofs
