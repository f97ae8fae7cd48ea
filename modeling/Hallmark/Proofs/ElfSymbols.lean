import Hallmark.Fingerprint
import Hallmark.Proofs.ElfSections

/-!
# Symbols of ELF images

Images that hold symbol tables, in both widths and both byte orders. Whatever the layout, the symbols
of the dynamic and of the static table are read back in order, without the placeholder in front of
them, and the hashes of the image do not depend on the layout.
-/

namespace Hallmark.Proofs
open Elf

/-- A symbol as an ELF image stores it. -/
structure StoredElfSymbol where
  name : String
  info : UInt8
  other : UInt8
  sectionIndex : UInt16
  value : UInt32
  size : UInt32

/-- A symbol table: where it is used, its symbols, and what stands behind their names. -/
structure StoredSymbolTable where
  origin : SymbolOrigin
  firstGlobal : UInt32
  symbols : List StoredElfSymbol
  moreStrings : List UInt8

/-- An ELF image that holds symbol tables next to other sections. -/
structure ElfSymbolImage where
  system : UInt8
  fileType : UInt16
  machine : UInt16
  entry : UInt32
  flags : UInt32
  tables : List StoredSymbolTable
  others : List ElfSection
  sectionNames : List UInt8

namespace StoredElfSymbol

/-- The record of a symbol whose name stands at `place` of the string table. -/
def fields (words : WordSize) (place : Nat) (s : StoredElfSymbol) : List Field :=
  ⟨4, place⟩ :: words.pick
    [⟨4, s.value.toNat⟩, ⟨4, s.size.toNat⟩, ⟨1, s.info.toNat⟩, ⟨1, s.other.toNat⟩,
      ⟨2, s.sectionIndex.toNat⟩]
    [⟨1, s.info.toNat⟩, ⟨1, s.other.toNat⟩, ⟨2, s.sectionIndex.toNat⟩, ⟨8, s.value.toNat⟩,
      ⟨8, s.size.toNat⟩]

/-- The placeholder in front of the symbols of a table. -/
def placeholder : StoredElfSymbol := ⟨"", 0, 0, 0, 0, 0⟩

def symbol (origin : SymbolOrigin) (s : StoredElfSymbol) : Symbol :=
  .ofOctets s.name s.info s.other origin

end StoredElfSymbol

/-- The kind of the section that holds the symbols of an origin. -/
def originKind : SymbolOrigin → UInt32
  | .dynamic => 11
  | .static => 2

namespace ElfSection

/-- A section with a kind and a content, and nothing else to say. -/
def plain (kind : UInt32) (content : List UInt8) : ElfSection := ⟨0, kind, 0, 0, 0, 0, 1, 0, content⟩

/-- A section that has no part in the reading of symbols. -/
def NotAboutSymbols (s : ElfSection) : Prop :=
  s.kind ≠ 2 ∧ s.kind ≠ 11 ∧ s.kind ≠ 18 ∧ isRelocationKind s.kind.toNat = false

instance (s : ElfSection) : Decidable s.NotAboutSymbols :=
  inferInstanceAs (Decidable (_ ∧ _ ∧ _ ∧ _))

end ElfSection

namespace StoredSymbolTable

/-- The names of the symbols, each with a zero octet at its end. -/
def names (t : StoredSymbolTable) : List UInt8 := t.symbols.flatMap fun s => terminated s.name

/-- The string table: an empty name, the names of the symbols, and the rest. -/
def strings (t : StoredSymbolTable) : List UInt8 := 0 :: (t.names ++ t.moreStrings)

/-- The symbols behind the placeholder, with the places of their names. -/
def placedSymbols (t : StoredSymbolTable) : List (Nat × StoredElfSymbol) :=
  withPlaces (fun s => terminated s.name) 1 t.symbols

def records (t : StoredSymbolTable) (l : Layout) : List UInt8 :=
  ((0, .placeholder) :: t.placedSymbols).flatMap fun q =>
    fieldOctets l.order (q.2.fields l.words q.1)

/-- The section of the symbols, linked to the section of their names. -/
def symbolSection (t : StoredSymbolTable) (l : Layout) (link : Nat) : ElfSection :=
  { ElfSection.plain (originKind t.origin) (t.records l) with
    link := .ofNat link
    info := t.firstGlobal
    entrySize := l.words.pick 16 24 }

def stringSection (t : StoredSymbolTable) : ElfSection := .plain 3 t.strings

/-- The sections of the tables, numbered from `index` on. -/
def sectionsFrom (l : Layout) : (index : Nat) → List StoredSymbolTable → List ElfSection
  | _, [] => []
  | index, t :: tables =>
    t.symbolSection l (index + 1) :: t.stringSection :: sectionsFrom l (index + 2) tables

end StoredSymbolTable

namespace ElfSymbolImage

/-- The sections: an empty one, the tables, the others, and the names of the sections. -/
def sections (image : ElfSymbolImage) (l : Layout) : List ElfSection :=
  .plain 0 [] :: (StoredSymbolTable.sectionsFrom l 1 image.tables ++
    (image.others ++ [.plain 3 image.sectionNames]))

def elf (image : ElfSymbolImage) (l : Layout) : ElfImage :=
  ⟨image.system, image.fileType, image.machine, image.entry, image.flags, image.sections l⟩

def bytes (image : ElfSymbolImage) (l : Layout) : Bytes := (image.elf l).bytes l

/-- The symbols of the first table of an origin; a missing table has none. -/
def entries (image : ElfSymbolImage) (origin : SymbolOrigin) : List StoredElfSymbol :=
  match image.tables.find? fun t => t.origin = origin with
  | some t => t.symbols
  | none => []

/-- The tables of symbols that the image stands for. -/
def symbolTables (image : ElfSymbolImage) : SymbolTables :=
  ⟨(image.entries .dynamic).map (StoredElfSymbol.symbol .dynamic),
    (image.entries .static).map (StoredElfSymbol.symbol .static)⟩

/-- An image that a layout has room for: its names have no zero characters and their places are
numbers of 32 bits. -/
structure Storable (image : ElfSymbolImage) (l : Layout) : Prop where
  fits : (image.elf l).Storable l.words
  names : ∀ t ∈ image.tables, ∀ s ∈ t.symbols, '\x00' ∉ s.name.toList
  strings : ∀ t ∈ image.tables, t.strings.length < 2 ^ 32
  others : ∀ s ∈ image.others, s.NotAboutSymbols

end ElfSymbolImage

/-! ## Finding the tables -/

section Tables
variable {image : ElfSymbolImage} {l : Layout} {origin : SymbolOrigin} {t : StoredSymbolTable}

lemma length_elfSymbolRecord (l : Layout) (q : Nat × StoredElfSymbol) :
    (fieldOctets l.order (q.2.fields l.words q.1)).length = symbolSize l.words := by
  rw [length_fieldOctets]
  cases l.words <;> rfl

lemma kind_symbolSection (link : Nat) :
    decide ((t.symbolSection l link).kind.toNat = (originKind origin).toNat) =
      decide (t.origin = origin) := by
  cases hstored : t.origin <;> cases origin <;>
    simp [StoredSymbolTable.symbolSection, ElfSection.plain, hstored, originKind]

/-- Among the sections of the tables the first of a kind is that of the first table of its origin,
and the section of its names is the next one. -/
lemma sectionsFrom_find (l : Layout) (origin : SymbolOrigin) (rest : List ElfSection)
    (hrest : ∀ s ∈ rest, s.kind.toNat ≠ (originKind origin).toNat) (index : Nat)
    (tables : List StoredSymbolTable) :
    match tables.find? fun t => t.origin = origin with
    | none => (StoredSymbolTable.sectionsFrom l index tables ++ rest).findIdx?
        (fun s => s.kind.toNat = (originKind origin).toNat) = none
    | some t => ∃ i, (StoredSymbolTable.sectionsFrom l index tables ++ rest).findIdx?
        (fun s => s.kind.toNat = (originKind origin).toNat) = some i ∧
      (StoredSymbolTable.sectionsFrom l index tables ++ rest)[i]? =
        some (t.symbolSection l (index + i + 1)) ∧
      (StoredSymbolTable.sectionsFrom l index tables ++ rest)[i + 1]? = some t.stringSection := by
  -- A table takes up two sections, so the links of the tables behind it count from `index + 2`.
  induction tables generalizing index with
  | nil =>
    have hnone : rest.findIdx? (fun s => s.kind.toNat = (originKind origin).toNat) = none := by
      rw [List.findIdx?_eq_none_iff]
      exact fun s hs => decide_eq_false (hrest s hs)
    exact hnone
  | cons t tables ih =>
    have hstrings : decide (t.stringSection.kind.toNat = (originKind origin).toNat) = false := by
      cases origin <;> rfl
    have ih := ih (index + 2)
    rw [List.find?_cons]
    simp only [StoredSymbolTable.sectionsFrom, List.cons_append, List.findIdx?_cons,
      kind_symbolSection, hstrings]
    cases horigin : decide (t.origin = origin) with
    | true => exact ⟨0, rfl, rfl, rfl⟩
    | false =>
      cases hfind : tables.find? fun t => t.origin = origin with
      | none =>
        rw [hfind] at ih
        simp [ih]
      | some found =>
        rw [hfind] at ih
        obtain ⟨i, hi, hsymbols, hnames⟩ := ih
        refine ⟨i + 2, by simp [hi], ?_, hnames⟩
        rw [List.getElem?_cons_succ, List.getElem?_cons_succ, hsymbols]
        congr 3
        omega

/-- The first section of a kind is that of the first table of its origin, with its names behind it. -/
lemma sections_find (h : image.Storable l) (origin : SymbolOrigin) :
    match image.tables.find? fun t => t.origin = origin with
    | none => (image.sections l).findIdx?
        (fun s => s.kind.toNat = (originKind origin).toNat) = none
    | some t => ∃ i, (image.sections l).findIdx?
        (fun s => s.kind.toNat = (originKind origin).toNat) = some i ∧
      (image.sections l)[i]? = some (t.symbolSection l (i + 1)) ∧
      (image.sections l)[i + 1]? = some t.stringSection := by
  have hrest : ∀ s ∈ image.others ++ [ElfSection.plain 3 image.sectionNames],
      s.kind.toNat ≠ (originKind origin).toNat := by
    intro s hs hkind
    rcases List.mem_append.mp hs with hother | hnames
    · obtain ⟨hstatic, hdynamic, -⟩ := h.others s hother
      cases origin with
      | dynamic => exact hdynamic (UInt32.toNat_inj.mp hkind)
      | static => exact hstatic (UInt32.toNat_inj.mp hkind)
    · rw [List.mem_singleton.mp hnames] at hkind
      cases origin <;> exact absurd hkind (show (3 : UInt32).toNat ≠ _ by decide)
  have hfirst : decide ((ElfSection.plain 0 []).kind.toNat = (originKind origin).toNat) = false := by
    cases origin <;> rfl
  have hfound := sectionsFrom_find l origin _ hrest 1 image.tables
  rw [ElfSymbolImage.sections]
  simp only [List.findIdx?_cons, hfirst]
  cases hfind : image.tables.find? fun t => t.origin = origin with
  | none =>
    rw [hfind] at hfound
    simp [hfound]
  | some t =>
    rw [hfind] at hfound
    obtain ⟨i, hi, hsymbols, hnames⟩ := hfound
    refine ⟨i + 1, by simp [hi], ?_, hnames⟩
    rw [List.getElem?_cons_succ, hsymbols]
    congr 3
    omega

/-- No section relocates, and none holds section indices of symbols. -/
lemma kind_sections (h : image.Storable l) {s : ElfSection} (hs : s ∈ image.sections l) :
    s.kind.toNat ≠ extendedIndicesKind ∧ isRelocationKind s.kind.toNat = false := by
  have htables (index : Nat) (tables : List StoredSymbolTable) :
      ∀ s ∈ StoredSymbolTable.sectionsFrom l index tables,
        s.kind.toNat ≠ extendedIndicesKind ∧ isRelocationKind s.kind.toNat = false := by
    induction tables generalizing index with
    | nil => simp [StoredSymbolTable.sectionsFrom]
    | cons t tables ih =>
      intro s hs
      rw [StoredSymbolTable.sectionsFrom, List.mem_cons, List.mem_cons] at hs
      rcases hs with rfl | rfl | hs
      · have hkind : (t.symbolSection l (index + 1)).kind = originKind t.origin := rfl
        rw [hkind]
        cases t.origin <;> decide
      · exact ⟨show (3 : UInt32).toNat ≠ _ by decide, rfl⟩
      · exact ih _ s hs
  rw [ElfSymbolImage.sections, List.mem_cons, List.mem_append, List.mem_append,
    List.mem_singleton] at hs
  rcases hs with rfl | hs | hs | rfl
  · exact ⟨by decide, by decide⟩
  · exact htables 1 image.tables s hs
  · obtain ⟨-, -, hindices, hrelocation⟩ := h.others s hs
    exact ⟨fun hkind => hindices (UInt32.toNat_inj.mp hkind), hrelocation⟩
  · exact ⟨show (3 : UInt32).toNat ≠ _ by decide, rfl⟩

lemma kind_readSections (h : image.Storable l) {s : SectionHeader}
    (hs : s ∈ (image.elf l).readSections l.words) :
    s.kind ≠ extendedIndicesKind ∧ isRelocationKind s.kind = false := by
  obtain ⟨⟨place, s⟩, hq, rfl⟩ := List.mem_map.mp hs
  exact kind_sections h (mem_of_withPlaces hq)

lemma checkRelocations_elf (h : image.Storable l) (index : Nat) :
    checkRelocations ((image.elf l).readSections l.words) index = .ok () := by
  refine forM_ok fun s hs => ?_
  have hkind := (kind_readSections h (List.mem_reverse.mp hs)).2
  simp only [hkind, Bool.false_and]
  rfl

end Tables

/-! ## Reading the symbols -/

section Symbols
variable {image : ElfSymbolImage} {l : Layout} {origin : SymbolOrigin} {t : StoredSymbolTable}

/-- A symbol is read back from its record when its name stands in the string table. -/
lemma symbolOf_record {data : Bytes} {start stop place : Nat} {s : StoredElfSymbol}
    (hname : Placed data (start + place) (terminated s.name)) (hnul : '\x00' ∉ s.name.toList)
    (hinside : start + place + (terminated s.name).length ≤ stop) (hstop : stop ≤ data.size)
    (hplace : place < 2 ^ 32) :
    symbolOf l data (some (start, stop)) origin
      (fieldOctets l.order (s.fields l.words place)).toArray = .ok (s.symbol origin) := by
  have hword : l.word (fieldOctets l.order (s.fields l.words place)).toArray 0 = place :=
    number_record l rfl hplace
  have hread := cstring?_of_placed hname hnul hinside
  have hoctets :
      (fieldOctets l.order (s.fields l.words place)).toArray.getD (l.pick 12 4) 0 = s.info ∧
      (fieldOctets l.order (s.fields l.words place)).toArray.getD (l.pick 12 4 + 1) 0 =
        s.other := by
    obtain ⟨words, order⟩ := l
    cases words <;> exact ⟨octet_record order rfl, octet_record order rfl⟩
  have hat : nameAt data (some (start, stop)) place = .ok (Bytes.ofString s.name) := by
    simp [nameAt, hstop, hread]
  rw [symbolOf, hword, hat, except_ok_bind]
  simp only [hoctets, lossy_ofString]
  rfl

lemma recordsOf?_symbolSection {data : Bytes} {place : Nat} (link : Nat)
    (h : Placed data place (t.records l)) :
    recordsOf? data ((t.symbolSection l link).header place) (symbolSize l.words) =
      some (((0, .placeholder) :: t.placedSymbols).map fun q =>
        (fieldOctets l.order (q.2.fields l.words q.1)).toArray) := by
  have hpos : 0 < symbolSize l.words := by cases l.words <;> decide
  have hrange : Bytes.range? data ((t.symbolSection l link).header place).offset
      ((t.symbolSection l link).header place).size = some (t.records l).toArray := h.range?
  rw [recordsOf?, hrange]
  simp only [Option.bind_eq_bind, Option.bind_some, List.size_toArray]
  rw [StoredSymbolTable.records, length_flatMap_of_width (length_elfSymbolRecord l),
    Nat.mul_mod_left, Nat.mul_div_cancel _ hpos, if_pos rfl,
    records_flatMap (length_elfSymbolRecord l)]

/-- The sections of a table are read as its records and the place of its names. -/
lemma symbolTable_elf (h : image.Storable l) {i : Nat}
    (hindex : (image.elf l).sections.findIdx?
      (fun s => s.kind.toNat = (originKind origin).toNat) = some i)
    (hsymbols : (image.elf l).sections[i]? = some (t.symbolSection l (i + 1)))
    (hstrings : (image.elf l).sections[i + 1]? = some t.stringSection) :
    ∃ start, Placed (image.bytes l) start t.strings ∧
      symbolTable l (image.bytes l) ((image.elf l).readSections l.words) (originKind origin).toNat =
        .ok (⟨((0, .placeholder) :: t.placedSymbols).map fun q =>
          (fieldOctets l.order (q.2.fields l.words q.1)).toArray,
          some (start, start + t.strings.length)⟩, i) := by
  obtain ⟨place, hsymbolHeader, hsymbolSection⟩ := readSections_getElem? l.words hsymbols
  obtain ⟨start, hstringHeader, hstringSection⟩ := readSections_getElem? l.words hstrings
  refine ⟨start, content_placed hstringSection, ?_⟩
  have hfind := (findIdx_readSections (image.elf l) l.words (originKind origin).toNat).trans hindex
  have hcount : i + 1 < 2 ^ 16 :=
    Nat.lt_trans (List.getElem?_eq_some_iff.mp hstrings).1 h.fits.count
  have hlink : ((t.symbolSection l (i + 1)).header place).link = i + 1 :=
    UInt32.toNat_ofNat_of_lt' (Nat.lt_trans hcount (by decide))
  have hrecords := recordsOf?_symbolSection (i + 1) (content_placed hsymbolSection)
  have hinside := content_le_tableAt hstringSection
  have hroom := h.fits.place
  have hstringsOf : stringsOf ((image.elf l).readSections l.words) (i + 1) =
      .ok (some (start, start + t.strings.length)) := by
    have hbig : 256 ^ l.words.octets ≤ UInt64.size := by cases l.words <;> decide
    have hfits : ¬UInt64.size ≤ start + t.strings.length := by
      have hlength : t.stringSection.content.length = t.strings.length := rfl
      omega
    rw [stringsOf, if_neg (Nat.succ_ne_zero i), hstringHeader]
    exact if_neg hfits
  have hextended : (((image.elf l).readSections l.words).filter fun s =>
      s.kind = extendedIndicesKind && s.link = i) = [] := by
    rw [List.filter_eq_nil_iff]
    intro s hs
    simp [(kind_readSections h hs).1]
  rw [ElfSymbolImage.bytes, symbolTable, hfind]
  simp only [hsymbolHeader, hrecords, hlink, hstringsOf, hextended, except_ok_bind]
  rfl

lemma symbolsOf_elf (h : image.Storable l) (origin : SymbolOrigin) :
    ∃ table index,
      symbolTable l (image.bytes l) ((image.elf l).readSections l.words) (originKind origin).toNat =
        .ok (table, index) ∧
      symbolsOf l (image.bytes l) table origin =
        .ok ((image.entries origin).map (StoredElfSymbol.symbol origin)) := by
  have hfound := sections_find h origin
  rw [ElfSymbolImage.entries]
  cases hfind : image.tables.find? fun t => t.origin = origin with
  | none =>
    rw [hfind] at hfound
    refine ⟨⟨[], none⟩, 0, ?_, rfl⟩
    rw [symbolTable, (findIdx_readSections (image.elf l) l.words _).trans hfound]
    rfl
  | some t =>
    rw [hfind] at hfound
    obtain ⟨i, hindex, hsymbols, hstrings⟩ := hfound
    obtain ⟨start, hplaced, htable⟩ := symbolTable_elf h hindex hsymbols hstrings
    refine ⟨_, i, htable, ?_⟩
    have hmem := List.mem_of_find?_eq_some hfind
    have hsize := h.strings t hmem
    have hread : ∀ q ∈ t.placedSymbols,
        symbolOf l (image.bytes l) (some (start, start + t.strings.length)) origin
          (fieldOctets l.order (q.2.fields l.words q.1)).toArray = .ok (q.2.symbol origin) := by
      rintro ⟨place, s⟩ hq
      have hname := placed_withPlaces hplaced.tail.left hq
      have hinside : place + (terminated s.name).length ≤ 1 + t.names.length :=
        withPlaces_inside hq
      have hlength : 1 + t.names.length ≤ t.strings.length := by
        rw [StoredSymbolTable.strings, List.length_cons, List.length_append]
        omega
      have hend : start + place + (terminated s.name).length ≤ start + t.strings.length := by omega
      exact symbolOf_record hname (h.names t hmem s (mem_of_withPlaces hq)) hend hplaced.le_size
        (by omega)
    have hsymbols : t.placedSymbols.map Prod.snd = t.symbols := map_withPlaces 1 t.symbols
    have hmap : (t.placedSymbols.map fun q => q.2.symbol origin) =
        t.symbols.map (StoredElfSymbol.symbol origin) := by
      rw [← hsymbols, List.map_map]
      rfl
    rw [symbolsOf, List.map_cons, List.drop_one, List.tail_cons, mapM_map_ok hread, hmap]

lemma symbolTables_elf (h : image.Storable l) :
    Elf.symbolTables (image.bytes l) = .ok image.symbolTables := by
  obtain ⟨dynamic, _, hdynamic, hdynamicSymbols⟩ := symbolsOf_elf h .dynamic
  obtain ⟨static, index, hstatic, hstaticSymbols⟩ := symbolsOf_elf h .static
  have hread : Elf.Image.ofBytes l.words (image.bytes l) = .ok ⟨l, static, dynamic⟩ := by
    have hstatic : symbolTable l (image.bytes l) ((image.elf l).readSections l.words)
        symbolTableKind = .ok (static, index) := hstatic
    have hdynamic : symbolTable l (image.bytes l) ((image.elf l).readSections l.words)
        dynamicSymbolsKind = .ok (dynamic, _) := hdynamic
    rw [ElfSymbolImage.bytes, image_elf h.fits, ← ElfSymbolImage.bytes, hstatic]
    simp only [except_ok_bind, hdynamic, checkRelocations_elf h]
    rfl
  have hkind : FileKind.ofBytes (image.bytes l) = .ok (.elf l.words) := kind_elf
  rw [Elf.symbolTables, hkind, except_ok_bind]
  simp only [hread, except_ok_bind, Elf.Image.symbolTables, hdynamicSymbols, hstaticSymbols]
  rfl

end Symbols

/-! ## The hashes of the symbols -/

section Hashes
variable {image : ElfSymbolImage} {l l' : Layout}

/-- The call targets enter the digest when both tables are empty, and only then. -/
lemma digestInput_image (image : ElfSymbolImage) (recovery : Except FormatError (List String)) :
    image.symbolTables.digestInput recovery =
      if (image.entries .dynamic).isEmpty && (image.entries .static).isEmpty then
        recovery.map joinNames
      else .ok (joinNames (normalizedNames image.symbolTables.symbols)) := by
  have hempty : image.symbolTables.isEmpty =
      ((image.entries .dynamic).isEmpty && (image.entries .static).isEmpty) := by
    rw [SymbolTables.isEmpty, ElfSymbolImage.symbolTables, List.isEmpty_map, List.isEmpty_map]
  rw [SymbolTables.digestInput, hempty]

lemma fingerprint_elf (h : image.Storable l) (c : Collaborators) :
    ElfFingerprint.ofBytes (image.bytes l) c =
      (⟨(attempt .symhash FormatError.message (image.symbolTables.symhash c.recovery)).1,
          (ElfFingerprint.similarityPart image.symbolTables c).1⟩,
        (attempt .symhash FormatError.message (image.symbolTables.symhash c.recovery)).2 ++
          (ElfFingerprint.similarityPart image.symbolTables c).2) := by
  rw [ElfFingerprint.ofBytes, symbolTables_elf h]

/-- The call targets make a difference to the hashes exactly when there are no symbols. -/
lemma recovery_matters_iff (h : image.Storable l) :
    (∃ c recovery, ElfFingerprint.ofBytes (image.bytes l) c ≠
        ElfFingerprint.ofBytes (image.bytes l) ⟨c.similarity, recovery⟩) ↔
      image.entries .dynamic = [] ∧ image.entries .static = [] := by
  constructor
  · rintro ⟨c, recovery, hne⟩
    by_contra hsymbols
    have hnonempty : ((image.entries .dynamic).isEmpty && (image.entries .static).isEmpty) =
        false := by
      rw [Bool.eq_false_iff, ne_eq, Bool.and_eq_true_iff, List.isEmpty_iff, List.isEmpty_iff]
      exact hsymbols
    have hinput (r : Except FormatError (List String)) : image.symbolTables.digestInput r =
        .ok (joinNames (normalizedNames image.symbolTables.symbols)) := by
      rw [digestInput_image, hnonempty, if_neg Bool.false_ne_true]
    apply hne
    simp only [fingerprint_elf h, ElfFingerprint.similarityPart, SymbolTables.symhash,
      SymbolTables.telfhash, hinput]
  · rintro ⟨hdynamic, hstatic⟩
    have hinput (r : Except FormatError (List String)) :
        image.symbolTables.digestInput r = r.map joinNames := by
      rw [digestInput_image, hdynamic, hstatic]
      rfl
    refine ⟨.none, .error ⟨""⟩, ?_⟩
    simp [fingerprint_elf h, ElfFingerprint.similarityPart, SymbolTables.symhash, hinput, attempt,
      Collaborators.none, Except.map]

end Hashes

/-- The tables of an image hold its dynamic and its static symbols, in order, without placeholders
and none of them missing, the same ones in every layout. So the hashes of its symbols are the same in
every layout, and the recovered call targets enter them exactly when there are no symbols. -/
theorem elf_symbols_read_back (image : ElfSymbolImage) (l l' : Layout) (h : image.Storable l)
    (h' : image.Storable l') :
    ∃ tables, Elf.symbolTables (image.bytes l) = .ok tables ∧
      Elf.symbolTables (image.bytes l') = .ok tables ∧
      tables.dynamic = (image.entries .dynamic).map (StoredElfSymbol.symbol .dynamic) ∧
      tables.static = (image.entries .static).map (StoredElfSymbol.symbol .static) ∧
      (∀ c, ElfFingerprint.ofBytes (image.bytes l) c = ElfFingerprint.ofBytes (image.bytes l') c) ∧
      (∀ recovery, tables.digestInput recovery =
        if (image.entries .dynamic).isEmpty && (image.entries .static).isEmpty then
          recovery.map joinNames
        else .ok (joinNames (normalizedNames tables.symbols))) ∧
      ((∃ c recovery, ElfFingerprint.ofBytes (image.bytes l) c ≠
          ElfFingerprint.ofBytes (image.bytes l) ⟨c.similarity, recovery⟩) ↔
        image.entries .dynamic = [] ∧ image.entries .static = []) := by
  refine ⟨image.symbolTables, symbolTables_elf h, symbolTables_elf h', rfl, rfl, ?_,
    digestInput_image image, recovery_matters_iff h⟩
  intro c
  rw [fingerprint_elf h, fingerprint_elf h']

/-- An image with both tables, of which the static one comes first, and one that was stripped. -/
def connectingElf : ElfSymbolImage :=
  ⟨0, 3, 62, 0x1040, 0,
    [⟨.static, 2, [⟨"crt.c", 4, 0, 0xfff1, 0, 0⟩, ⟨"connect", 0x12, 0, 0, 0, 0⟩], [0]⟩,
      ⟨.dynamic, 1, [⟨"bind", 0x12, 0, 0, 0, 0⟩, ⟨"environ", 0x11, 0, 0, 0, 8⟩], []⟩],
    [.plain 1 [0xf3, 0x0f, 0x1e, 0xfa]], terminated ".shstrtab"⟩

def strippedElf : ElfSymbolImage := ⟨0, 2, 8, 0x400000, 0x1007, [], [.plain 1 [0]], [0]⟩

theorem elf_symbols_read_back_connecting :
    connectingElf.Storable ⟨.bits64, .little⟩ ∧ connectingElf.Storable ⟨.bits32, .big⟩ ∧
      strippedElf.Storable ⟨.bits32, .big⟩ ∧ ∃ tables stripped,
        Elf.symbolTables (connectingElf.bytes ⟨.bits64, .little⟩) = .ok tables ∧
        Elf.symbolTables (connectingElf.bytes ⟨.bits32, .big⟩) = .ok tables ∧
        tables.dynamic.map Symbol.name = ["bind", "environ"] ∧
        tables.static.map Symbol.name = ["crt.c", "connect"] ∧
        tables.digestInput (.ok ["b", "a"]) = .ok "bind,connect" ∧
        Elf.symbolTables (strippedElf.bytes ⟨.bits32, .big⟩) = .ok stripped ∧
        stripped.digestInput (.ok ["b", "a"]) = .ok "b,a" := by
  have h : connectingElf.Storable ⟨.bits64, .little⟩ :=
    ⟨⟨by decide +kernel, by decide +kernel, by decide +kernel⟩, by decide +kernel,
      by decide +kernel, by decide +kernel⟩
  have h' : connectingElf.Storable ⟨.bits32, .big⟩ :=
    ⟨⟨by decide +kernel, by decide +kernel, by decide +kernel⟩, by decide +kernel,
      by decide +kernel, by decide +kernel⟩
  have hs : strippedElf.Storable ⟨.bits32, .big⟩ :=
    ⟨⟨by decide +kernel, by decide +kernel, by decide +kernel⟩, by decide +kernel,
      by decide +kernel, by decide +kernel⟩
  obtain ⟨tables, htables, htables', hdynamic, hstatic, -, hinput, -⟩ :=
    elf_symbols_read_back _ _ _ h h'
  obtain ⟨stripped, hstripped, -, -, -, -, hrecovered, -⟩ := elf_symbols_read_back _ _ _ hs hs
  refine ⟨h, h', hs, tables, stripped, htables, htables', ?_, ?_, ?_, hstripped, ?_⟩
  · rw [hdynamic]
    rfl
  · rw [hstatic]
    rfl
  · have hnames : (tables.symbols.filter fun s => !s.isExcluded).map
        (fun s => LetterCase.lower s.name) = ["bind", "connect"] := by
      rw [SymbolTables.symbols, hdynamic, hstatic]
      decide +kernel
    have hsorted : normalizedNames tables.symbols = ["bind", "connect"] := by
      rw [normalizedNames, hnames, sortNames]
      exact List.mergeSort_of_pairwise (by decide +kernel)
    rw [hinput, hsorted]
    rfl
  · rw [hrecovered]
    rfl

end Hallmark.Proofs
