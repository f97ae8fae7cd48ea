import Hallmark.MachO.Summary
import Hallmark.Proofs.FieldRecords
import Hallmark.Proofs.JoinedNames
import Hallmark.Proofs.PackedPieces
import Hallmark.Proofs.StatefulRuns

/-!
# Symbols of Mach-O images

Images that hold a list of symbols, in both widths and both byte orders. Whatever the layout, the
undefined symbols are read back by their names, and the hash of the names depends neither on the
layout nor on the order of the symbols.
-/

namespace Hallmark.Proofs
open MachO

/-- A symbol as an image stores it. -/
structure StoredSymbol where
  name : String
  kind : UInt8
  sectionNumber : UInt8
  description : UInt16
  value : UInt32

/-- A load command that is about symbols: where they are, or how they are divided into ranges. -/
inductive SymbolLoad where
  | table
  | ranges (bounds : Fin 18 → UInt32)

/-- An image that holds symbols. -/
structure SymbolImage where
  cpu : UInt32
  subtype : UInt32
  fileType : UInt32
  flags : UInt32
  loads : List SymbolLoad
  symbols : List StoredSymbol
  /-- What stands in the string table behind the names. -/
  moreStrings : List UInt8

namespace StoredSymbol

/-- The record of a symbol whose name stands at `place` of the string table. -/
def fields (words : WordSize) (place : Nat) (s : StoredSymbol) : List Field :=
  [⟨4, place⟩, ⟨1, s.kind.toNat⟩, ⟨1, s.sectionNumber.toNat⟩, ⟨2, s.description.toNat⟩,
    ⟨words.octets, s.value.toNat⟩]

def isUndefined (s : StoredSymbol) : Bool := s.kind &&& 0x0e == 0

end StoredSymbol

namespace SymbolLoad

def isTable : SymbolLoad → Bool
  | table => true
  | ranges _ => false

def number : SymbolLoad → Nat
  | table => 2
  | ranges _ => 0xb

def size : SymbolLoad → Nat
  | table => 24
  | ranges _ => 80

/-- The fields of a command behind its number and its size, for a symbol table with these places. -/
def body (symbolsAt count stringsAt stringsSize : Nat) : SymbolLoad → List Field
  | table => [⟨4, symbolsAt⟩, ⟨4, count⟩, ⟨4, stringsAt⟩, ⟨4, stringsSize⟩]
  | ranges bounds => (List.finRange 18).map fun i => ⟨4, (bounds i).toNat⟩

end SymbolLoad

namespace SymbolImage

/-- The names of the symbols, each with a zero octet at its end. -/
def names (image : SymbolImage) : List UInt8 := image.symbols.flatMap fun s => terminated s.name

def commandsSize (image : SymbolImage) : Nat := (image.loads.map SymbolLoad.size).sum

/-- The string table: an empty name, the names of the symbols, and the rest. -/
def strings (image : SymbolImage) : List UInt8 :=
  0 :: (image.names ++ image.moreStrings)

def symbolsAt (image : SymbolImage) (words : WordSize) : Nat := headerSize words + image.commandsSize

def stringsAt (image : SymbolImage) (words : WordSize) : Nat :=
  image.symbolsAt words + image.symbols.length * symbolSize words

def header (image : SymbolImage) (words : WordSize) : List Field :=
  [⟨4, words.pick 0xfeedface 0xfeedfacf⟩, ⟨4, image.cpu.toNat⟩, ⟨4, image.subtype.toNat⟩,
    ⟨4, image.fileType.toNat⟩, ⟨4, image.loads.length⟩, ⟨4, image.commandsSize⟩,
    ⟨4, image.flags.toNat⟩] ++ words.pick [] [⟨4, 0⟩]

/-- The fields of a load command. -/
def command (image : SymbolImage) (words : WordSize) (load : SymbolLoad) : List Field :=
  [⟨4, load.number⟩, ⟨4, load.size⟩] ++
    load.body (image.symbolsAt words) image.symbols.length (image.stringsAt words)
      image.strings.length

def commands (image : SymbolImage) (l : Layout) : List UInt8 :=
  image.loads.flatMap fun load => fieldOctets l.order (image.command l.words load)

/-- The symbols with the places of their names in the string table. -/
def placedSymbols (image : SymbolImage) : List (Nat × StoredSymbol) :=
  withPlaces (fun s => terminated s.name) 1 image.symbols

def table (image : SymbolImage) (l : Layout) : List UInt8 :=
  image.placedSymbols.flatMap fun q => fieldOctets l.order (q.2.fields l.words q.1)

/-- The image in a layout: its header, its load commands, the symbols and their names. -/
def bytes (image : SymbolImage) (l : Layout) : Bytes :=
  (fieldOctets l.order (image.header l.words) ++
    (image.commands l ++ (image.table l ++ image.strings))).toArray

/-- An image that a layout has room for: its places are numbers of 32 bits. -/
structure Storable (image : SymbolImage) (l : Layout) : Prop where
  names : ∀ s ∈ image.symbols, '\x00' ∉ s.name.toList
  place : image.stringsAt l.words < 2 ^ 32
  size : image.strings.length < 2 ^ 32

/-- True when a command says where the symbols are. -/
def hasTable (image : SymbolImage) : Bool := image.loads.any SymbolLoad.isTable

/-- True when a command divides the symbols into ranges. -/
def hasRanges (image : SymbolImage) : Bool := image.loads.any fun load => !load.isTable

/-- The names of the undefined symbols, in order. -/
def undefinedNames (image : SymbolImage) : List String :=
  (image.symbols.filter StoredSymbol.isUndefined).map StoredSymbol.name

end SymbolImage

example : (SymbolImage.mk 7 3 1 0 [.table] [⟨"_a", 1, 0, 0, 0⟩] []).bytes ⟨.bits32, .big⟩ = #[
    0xfe, 0xed, 0xfa, 0xce, 0, 0, 0, 7, 0, 0, 0, 3, 0, 0, 0, 1, 0, 0, 0, 1, 0, 0, 0, 24, 0, 0, 0, 0,
    0, 0, 0, 2, 0, 0, 0, 24, 0, 0, 0, 52, 0, 0, 0, 1, 0, 0, 0, 64, 0, 0, 0, 4,
    0, 0, 0, 1, 1, 0, 0, 0, 0, 0, 0, 0,
    0, 95, 97, 0] := by decide +kernel

/-! ## The layout of an image -/

section Layout
variable (image : SymbolImage) (l : Layout)

lemma fieldsWidth_command (words : WordSize) (load : SymbolLoad) :
    fieldsWidth (image.command words load) = load.size := by
  cases load with
  | table => rfl
  | ranges bounds =>
    simp [SymbolImage.command, SymbolLoad.body, SymbolLoad.size, fieldsWidth, List.map_map,
      Function.comp_def]

lemma fieldsWidth_header (words : WordSize) :
    fieldsWidth (image.header words) = headerSize words := by
  cases words <;> rfl

lemma length_symbolRecord (q : Nat × StoredSymbol) :
    (fieldOctets l.order (q.2.fields l.words q.1)).length = symbolSize l.words := by
  rw [length_fieldOctets]
  cases l.words <;> rfl

lemma length_commands : (image.commands l).length = image.commandsSize := by
  rw [SymbolImage.commands, List.length_flatMap, SymbolImage.commandsSize]
  simp only [length_fieldOctets, fieldsWidth_command]

lemma length_table :
    (image.table l).length = image.symbols.length * symbolSize l.words := by
  rw [SymbolImage.table, length_flatMap_of_width (length_symbolRecord l),
    SymbolImage.placedSymbols, length_withPlaces]

lemma header_placed : Placed (image.bytes l) 0 (fieldOctets l.order (image.header l.words)) :=
  (Placed.self (image.bytes l)).left

lemma commands_placed : Placed (image.bytes l) (headerSize l.words) (image.commands l) := by
  have hplaced := (Placed.self (image.bytes l)).right.left
  rwa [length_fieldOctets, fieldsWidth_header, Nat.zero_add] at hplaced

lemma table_strings_placed :
    Placed (image.bytes l) (image.symbolsAt l.words) (image.table l ++ image.strings) := by
  have hplaced := (Placed.self (image.bytes l)).right.right
  rwa [length_fieldOctets, fieldsWidth_header, Nat.zero_add, length_commands] at hplaced

lemma strings_placed : Placed (image.bytes l) (image.stringsAt l.words) image.strings := by
  have hplaced := (table_strings_placed image l).right
  rwa [length_table] at hplaced

lemma size_bytes : (image.bytes l).size = image.stringsAt l.words + image.strings.length := by
  simp only [SymbolImage.bytes, List.size_toArray, List.length_append, length_fieldOctets,
    fieldsWidth_header, length_commands, length_table, SymbolImage.stringsAt,
    SymbolImage.symbolsAt, Nat.add_assoc]

lemma size_le_commandsSize (loads : List SymbolLoad) :
    loads.length ≤ (loads.map SymbolLoad.size).sum := by
  induction loads with
  | nil => exact Nat.le_refl _
  | cons load loads ih =>
    have hpos : 1 ≤ load.size := by cases load <;> simp [SymbolLoad.size]
    rw [List.length_cons, List.map_cons, List.sum_cons]
    omega

end Layout

/-! ## Reading an image -/

section Reading
variable {image : SymbolImage} {l : Layout}

/-- The magic number of an image tells its width, and its first octet the byte order. -/
lemma kind_bytes : FileKind.ofBytes (image.bytes l) = .ok (.machO l.words) ∧
    byteOrder (image.bytes l) = l.order := by
  have hsize : ¬(image.bytes l).size < 16 := by
    rw [size_bytes, SymbolImage.stringsAt, SymbolImage.symbolsAt]
    cases l.words <;> simp [headerSize, WordSize.pick] <;> omega
  have hdata : (image.bytes l).toList = l.order.octets 4 (l.words.pick 0xfeedface 0xfeedfacf) ++
      (fieldOctets l.order (image.header l.words).tail ++
        (image.commands l ++ (image.table l ++ image.strings))) := by
    rw [← List.append_assoc]
    rfl
  generalize fieldOctets l.order (image.header l.words).tail ++
    (image.commands l ++ (image.table l ++ image.strings)) = rest at hdata
  have hfirst : (image.bytes l).getD 0 0 = (image.bytes l).toList.headD 0 := by
    rcases image.bytes l with ⟨_ | _⟩ <;> rfl
  rw [byteOrder, hfirst, hdata]
  obtain ⟨words, order⟩ := l
  cases words <;> cases order <;>
    exact ⟨by simp [FileKind.ofBytes, FileKind.magics, hasAt_start, hdata, hsize, ByteOrder.octets,
      littleOctets, WordSize.pick], rfl⟩

/-- A load command as it is read. -/
def SymbolImage.loaded (image : SymbolImage) (l : Layout) (load : SymbolLoad) : Command :=
  ⟨load.number, (fieldOctets l.order (image.command l.words load)).toArray⟩

lemma size_loaded (load : SymbolLoad) : (image.loaded l load).bytes.size = load.size := by
  rw [SymbolImage.loaded, List.size_toArray, length_fieldOctets, fieldsWidth_command]

lemma read_commands {loads : List SymbolLoad} {table : Bytes} {offset : Nat}
    (h : Placed table offset
      (loads.flatMap fun load => fieldOctets l.order (image.command l.words load))) :
    CommandList.read l table loads.length offset = ⟨loads.map (image.loaded l), none⟩ := by
  induction loads generalizing offset with
  | nil => rfl
  | cons load loads ih =>
    rw [List.flatMap_cons] at h
    have hcommand := h.left.record
    rw [fieldsWidth_command] at hcommand
    have hstart := h.left
    rw [SymbolImage.command, fieldOctets_append] at hstart
    have hheader : Bytes.slice? table offset 8 =
        some (fieldOctets l.order [⟨4, load.number⟩, ⟨4, load.size⟩]).toArray := hstart.left.record
    have hnumber : l.word (fieldOctets l.order [⟨4, load.number⟩, ⟨4, load.size⟩]).toArray 0 =
        load.number := number_record l rfl (by cases load <;> simp [SymbolLoad.number])
    have hsize : l.word (fieldOctets l.order [⟨4, load.number⟩, ⟨4, load.size⟩]).toArray 4 =
        load.size := number_record l rfl (by cases load <;> simp [SymbolLoad.size])
    have hroom : ¬load.size < 8 := by cases load <;> simp [SymbolLoad.size]
    have hnext := h.right
    rw [length_fieldOctets, fieldsWidth_command] at hnext
    rw [List.length_cons, CommandList.read, hheader]
    simp only [hnumber, hsize, hroom, if_false, hcommand, ih hnext]
    rfl

/-- The symbol table of the image as it is read. -/
def SymbolImage.readTable (image : SymbolImage) (l : Layout) : MachO.SymbolTable :=
  ⟨image.placedSymbols.map fun q => (fieldOctets l.order (q.2.fields l.words q.1)).toArray,
    image.stringsAt l.words, image.stringsAt l.words + image.strings.length⟩

lemma symbols_lt (h : image.Storable l) :
    image.symbolsAt l.words < 2 ^ 32 ∧ image.symbols.length < 2 ^ 32 := by
  have hplace := h.place
  have hwidth : 1 ≤ symbolSize l.words := by cases l.words <;> decide
  have hcount : image.symbols.length ≤ image.symbols.length * symbolSize l.words :=
    Nat.le_mul_of_pos_right _ hwidth
  rw [SymbolImage.stringsAt] at hplace
  omega

lemma symbolTable_loaded (h : image.Storable l) :
    symbolTable l (image.bytes l) (image.loaded l .table) = .ok (image.readTable l) := by
  obtain ⟨hsymbols, hcount⟩ := symbols_lt h
  have hfields : (image.loaded l .table).fields 24 = .ok (image.loaded l .table).bytes := by
    rw [Command.fields, if_pos (show 24 ≤ _ from (size_loaded .table).ge)]
  have hat : l.word (image.loaded l .table).bytes 8 = image.symbolsAt l.words :=
    number_record l rfl hsymbols
  have hlength : l.word (image.loaded l .table).bytes 12 = image.symbols.length :=
    number_record l rfl hcount
  have hstrings : l.word (image.loaded l .table).bytes 16 = image.stringsAt l.words :=
    number_record l rfl h.place
  have hsize : l.word (image.loaded l .table).bytes 20 = image.strings.length :=
    number_record l rfl h.size
  have hrange := (table_strings_placed image l).left.range?
  rw [length_table] at hrange
  have hrecords := records_flatMap (length_symbolRecord l) image.placedSymbols
  rw [SymbolImage.placedSymbols, length_withPlaces] at hrecords
  rw [symbolTable, hfields]
  simp only [except_ok_bind, hat, hlength, hstrings, hsize, hrange]
  rw [SymbolImage.table, SymbolImage.placedSymbols, hrecords]
  rfl

lemma number_ne_segment (load : SymbolLoad) :
    (image.loaded l load).number ≠ segmentCommand l.words := by
  cases load <;> cases l.words <;>
    simp [SymbolImage.loaded, SymbolLoad.number, segmentCommand, WordSize.pick]

/-- The commands put together the symbol table, and no sections. -/
lemma parts_commands (h : image.Storable l) (loads : List SymbolLoad) (parts : Parts) :
    (loads.map (image.loaded l)).foldlM (Parts.step l (image.bytes l)) parts =
      .ok { parts with
        symbols := if loads.any SymbolLoad.isTable then image.readTable l else parts.symbols } := by
  induction loads generalizing parts with
  | nil => rfl
  | cons load loads ih =>
    rw [List.map_cons, List.foldlM_cons, Parts.step, if_neg (number_ne_segment load)]
    cases load with
    | table =>
      have htable : (image.loaded l .table).number = symbolTableCommand := rfl
      rw [if_pos htable, symbolTable_loaded h, except_ok_bind]
      refine (ih _).trans ?_
      simp [SymbolLoad.isTable]
    | ranges bounds =>
      have hranges : (image.loaded l (.ranges bounds)).number ≠ symbolTableCommand := by
        simp [SymbolImage.loaded, SymbolLoad.number, symbolTableCommand]
      rw [if_neg hranges]
      refine (ih _).trans ?_
      simp [SymbolLoad.isTable]

/-- The image as it is read. -/
def SymbolImage.readImage (image : SymbolImage) (l : Layout) : MachO.Image :=
  ⟨l, image.cpu.toNat, ⟨image.loads.map (image.loaded l), none⟩, [],
    if image.hasTable then image.readTable l else ⟨[], 0, 0⟩⟩

lemma content_bytes (h : image.Storable l) :
    Content.ofBytes (image.bytes l) = .ok (.thin (image.readImage l)) := by
  have hheader := (header_placed image l).record
  rw [fieldsWidth_header] at hheader
  have hcommands := (commands_placed image l).range?
  rw [length_commands] at hcommands
  have hsymbols := (symbols_lt h).1
  have hloads := size_le_commandsSize image.loads
  rw [SymbolImage.symbolsAt, SymbolImage.commandsSize] at hsymbols
  have hsize : l.word (fieldOctets l.order (image.header l.words)).toArray 20 =
      image.commandsSize := number_record l rfl (by rw [SymbolImage.commandsSize]; omega)
  have hcount : l.word (fieldOctets l.order (image.header l.words)).toArray 16 =
      image.loads.length := number_record l rfl (by omega)
  have hcpu : l.word (fieldOctets l.order (image.header l.words)).toArray 4 =
      image.cpu.toNat := number_record l rfl image.cpu.toNat_lt
  have hread : CommandList.read l (image.commands l).toArray image.loads.length 0 =
      ⟨image.loads.map (image.loaded l), none⟩ :=
    read_commands (Placed.self (image.commands l).toArray)
  rw [Content.ofBytes, kind_bytes.1, except_ok_bind]
  simp only [MachO.Image.ofBytes, kind_bytes.2, hheader, hsize, hcount, hcpu, hcommands, hread,
    parts_commands h, except_ok_bind]
  rfl

/-- The commands say whether there is a symbol table, and whether it is divided. -/
lemma symbols_commands (image : SymbolImage) (l : Layout) (loads : List SymbolLoad)
    (found : SymbolCommands) :
    ∃ undefined, (loads.map (image.loaded l)).foldlM (SymbolCommands.step l) found =
        .ok ⟨found.hasTable || loads.any SymbolLoad.isTable, undefined⟩ ∧
      undefined.isSome = (found.undefined.isSome || loads.any fun load => !load.isTable) := by
  induction loads generalizing found with
  | nil => exact ⟨found.undefined, by simp; rfl, by simp⟩
  | cons load loads ih =>
    rw [List.map_cons, List.foldlM_cons, SymbolCommands.step]
    cases load with
    | table =>
      have htable : (image.loaded l .table).number = symbolTableCommand := rfl
      have hfields : (image.loaded l .table).fields 24 = .ok (image.loaded l .table).bytes := by
        rw [Command.fields, if_pos (show 24 ≤ _ from (size_loaded .table).ge)]
      obtain ⟨undefined, hfold, hsome⟩ := ih { found with hasTable := true }
      refine ⟨undefined, ?_, ?_⟩
      · rw [if_pos htable, hfields]
        refine hfold.trans ?_
        simp [SymbolLoad.isTable]
      · simpa [SymbolLoad.isTable] using hsome
    | ranges bounds =>
      have htable : (image.loaded l (.ranges bounds)).number ≠ symbolTableCommand := by
        simp [SymbolImage.loaded, SymbolLoad.number, symbolTableCommand]
      have hranges : (image.loaded l (.ranges bounds)).number = symbolRangesCommand := rfl
      have hfields : (image.loaded l (.ranges bounds)).fields 80 =
          .ok (image.loaded l (.ranges bounds)).bytes := by
        rw [Command.fields, if_pos (show 80 ≤ _ from (size_loaded (.ranges bounds)).ge)]
      obtain ⟨undefined, hfold, hsome⟩ := ih { found with undefined := some _ }
      refine ⟨undefined, ?_, ?_⟩
      · rw [if_neg htable, if_pos hranges, hfields]
        refine hfold.trans ?_
        simp [SymbolLoad.isTable]
      · simpa [SymbolLoad.isTable] using hsome

/-- The name of a symbol stands where its record says. -/
lemma symbolName_record (h : image.Storable l) (htable : image.hasTable = true)
    {q : Nat × StoredSymbol} (hq : q ∈ image.placedSymbols) :
    (image.readImage l).symbolName (image.bytes l)
        (fieldOctets l.order (q.2.fields l.words q.1)).toArray =
      .ok (Bytes.ofString q.2.name) := by
  obtain ⟨place, s⟩ := q
  have hname := placed_withPlaces (strings_placed image l).tail.left hq
  have hinside : place + (terminated s.name).length ≤ 1 + image.names.length :=
    withPlaces_inside hq
  have hlength : 1 + image.names.length ≤ image.strings.length := by
    rw [SymbolImage.strings, List.length_cons, List.length_append]
    omega
  have hsize := h.size
  have hplace : l.word (fieldOctets l.order (s.fields l.words place)).toArray 0 = place :=
    number_record l rfl (by omega)
  have hread : Bytes.cstring? (image.bytes l) (image.stringsAt l.words + place)
      (image.stringsAt l.words + image.strings.length) = some (Bytes.ofString s.name) :=
    cstring?_of_placed hname (h.names s (mem_of_withPlaces hq)) (by omega)
  rw [MachO.Image.symbolName, size_bytes]
  simp only [SymbolImage.readImage, htable, if_true, SymbolImage.readTable, hplace, le_refl, hread]

lemma isUndefined_record (q : Nat × StoredSymbol) :
    MachO.Image.isUndefined (fieldOctets l.order (q.2.fields l.words q.1)).toArray =
      q.2.isUndefined := by
  rw [MachO.Image.isUndefined, octet_record l.order (b := q.2.kind) rfl]
  rfl

lemma mapM_symbolName (h : image.Storable l) (htable : image.hasTable = true) :
    ((image.readImage l).symbols.records.filter MachO.Image.isUndefined).mapM
        ((image.readImage l).symbolName (image.bytes l)) =
      .ok (image.undefinedNames.map Bytes.ofString) := by
  have hfilter : (image.readImage l).symbols.records.filter MachO.Image.isUndefined =
      (image.placedSymbols.filter fun q => q.2.isUndefined).map fun q =>
        (fieldOctets l.order (q.2.fields l.words q.1)).toArray := by
    rw [SymbolImage.readImage, if_pos htable, SymbolImage.readTable, List.filter_map]
    congr 2
    funext q
    exact isUndefined_record q
  have hnames : (image.placedSymbols.filter fun q => q.2.isUndefined).map
      (fun q => Bytes.ofString q.2.name) =
      (image.symbols.filter StoredSymbol.isUndefined).map fun s => Bytes.ofString s.name :=
    filter_withPlaces (fun s : StoredSymbol => Bytes.ofString s.name) _ 1 image.symbols
  rw [hfilter, mapM_map_ok fun q hq => symbolName_record h htable (List.mem_of_mem_filter hq),
    hnames, SymbolImage.undefinedNames, List.map_map]
  rfl

/-- The undefined symbols of an image, unless one of the commands is missing. -/
def SymbolImage.undefined (image : SymbolImage) : UndefinedSymbols :=
  ⟨false, if image.hasTable && image.hasRanges then some image.undefinedNames else none⟩

lemma undefinedSymbols_bytes (h : image.Storable l) :
    undefinedSymbols (image.bytes l) = .ok image.undefined := by
  obtain ⟨range, hfold, hsome⟩ := symbols_commands image l image.loads ⟨false, none⟩
  have hcommands : (image.readImage l).symbolCommands = .ok ⟨image.hasTable, range⟩ := by
    rw [MachO.Image.symbolCommands, SymbolImage.readImage, CommandList.run, hfold, except_ok_bind]
    rfl
  have hranges : range.isSome = image.hasRanges := hsome
  rw [undefinedSymbols, content_bytes h, except_ok_bind]
  simp only [MachO.Image.undefinedNames, hcommands, except_ok_bind, hranges]
  cases htable : image.hasTable && image.hasRanges with
  | false =>
    rw [if_neg Bool.false_ne_true, SymbolImage.undefined, htable]
    rfl
  | true =>
    have hlossy : (image.undefinedNames.map Bytes.ofString).map Utf8.lossy =
        image.undefinedNames := by
      rw [List.map_map]
      exact (List.map_congr_left fun name _ => lossy_ofString name).trans (List.map_id _)
    rw [if_pos rfl, mapM_symbolName h (Bool.and_eq_true_iff.mp htable).1, except_ok_bind, hlossy,
      SymbolImage.undefined, htable]
    rfl

end Reading

/-! ## The hash of the undefined names -/

lemma md5_ne_empty (data : Bytes) : Digest.md5 data ≠ "" := by
  have hhex (b : UInt8) (bs : List UInt8) : Bytes.hex (b :: bs).toArray ≠ "" := by
    rw [Bytes.hex, List.toList_toArray, List.flatMap_cons, ← String.toList_inj.ne,
      String.toList_ofList]
    exact List.cons_ne_nil _ _
  exact hhex _ _

lemma symhash_undefined_eq_empty (image : SymbolImage) :
    image.undefined.symhash = "" ↔ ¬(image.hasTable ∧ image.hasRanges) := by
  rw [← Bool.and_eq_true_iff, SymbolImage.undefined]
  cases image.hasTable && image.hasRanges with
  | false => simp [UndefinedSymbols.symhash]
  | true => simp [UndefinedSymbols.symhash, md5_ne_empty]

lemma undefinedNames_perm {image image' : SymbolImage}
    (h : (image.symbols.map fun s => (s.name, s.kind)).Perm
      (image'.symbols.map fun s => (s.name, s.kind))) :
    image.undefinedNames.Perm image'.undefinedNames := by
  have hnames (i : SymbolImage) : i.undefinedNames =
      ((i.symbols.map fun s => (s.name, s.kind)).filter fun q => q.2 &&& 0x0e == 0).map
        Prod.fst := by
    rw [List.filter_map, List.map_map]
    rfl
  rw [hnames, hnames]
  exact (h.filter _).map _

/-- The hash of undefined names digests a canonical form of them. Their order does not matter, and
names that are not empty and have no commas can be told from what is digested, each as often as it is
there. -/
theorem undefined_names_digested (names names' : List String) :
    ∃ input input', UndefinedSymbols.symhash ⟨false, some names⟩ =
        Digest.md5 (Bytes.ofString input) ∧
      UndefinedSymbols.symhash ⟨false, some names'⟩ = Digest.md5 (Bytes.ofString input') ∧
      (names.Perm names' → input = input') ∧
      ((∀ name ∈ names ++ names', Joinable name) → input = input' → names.Perm names') := by
  refine ⟨joinNames (sortNames names), joinNames (sortNames names'), rfl, rfl, ?_, ?_⟩
  · intro hperm
    rw [sortNames_eq_iff.mpr hperm]
  · intro hjoinable hinput
    obtain ⟨hleft, hright⟩ := List.forall_mem_append.mp hjoinable
    exact (joinNames_sortNames hleft hright).mp hinput

/-- An image gives back the names of its undefined symbols, in order and as they are stored, in
every layout, or none when it lacks one of the two commands, and only then its hash is empty. The
hash is the digest of the names in ascending order, and that of any other image whose symbols have
the same names and kinds, in any layout and in any order. -/
theorem undefined_symbols_read_back (image image' : SymbolImage) (l l' : Layout)
    (h : image.Storable l) (h' : image'.Storable l') :
    ∃ u u', undefinedSymbols (image.bytes l) = .ok u ∧ undefinedSymbols (image'.bytes l') = .ok u' ∧
      u.isFat = false ∧
      u.names = (if image.hasTable && image.hasRanges then some image.undefinedNames else none) ∧
      (u.symhash = "" ↔ ¬(image.hasTable ∧ image.hasRanges)) ∧
      (∀ names, u.names = some names →
        u.symhash = Digest.md5 (Bytes.ofString (joinNames (sortNames names)))) ∧
      ((image.hasTable && image.hasRanges) = (image'.hasTable && image'.hasRanges) →
        (image.symbols.map fun s => (s.name, s.kind)).Perm
          (image'.symbols.map fun s => (s.name, s.kind)) →
        u.symhash = u'.symhash) := by
  refine ⟨image.undefined, image'.undefined, undefinedSymbols_bytes h, undefinedSymbols_bytes h',
    rfl, rfl, symhash_undefined_eq_empty image, ?_, ?_⟩
  · intro names hnames
    rw [UndefinedSymbols.symhash, hnames]
    rfl
  · intro hcommands hsymbols
    obtain ⟨input, input', hinput, hinput', hcanonical, -⟩ :=
      undefined_names_digested image.undefinedNames image'.undefinedNames
    rw [SymbolImage.undefined, SymbolImage.undefined, ← hcommands]
    cases image.hasTable && image.hasRanges with
    | false => rfl
    | true =>
      simp only [if_true]
      rw [hinput, hinput', hcanonical (undefinedNames_perm hsymbols)]

/-- Symbols of which one is defined and two have the same name. -/
def borrowedSymbols : List StoredSymbol :=
  [⟨"_read", 1, 0, 0, 0⟩, ⟨"_main", 0x0f, 1, 0, 16⟩, ⟨"_open", 0, 0, 0x0100, 0⟩,
    ⟨"_read", 0xe1, 0, 0, 0⟩]

/-- An image with these symbols, the same with the symbols and the commands the other way round, and
one that lacks a command. -/
def borrowingImage : SymbolImage :=
  ⟨0x01000007, 3, 1, 0, [.table, .ranges fun _ => 0], borrowedSymbols, [0, 0]⟩

def turnedImage : SymbolImage :=
  ⟨7, 3, 1, 0, [.ranges fun _ => 1, .table], borrowedSymbols.reverse, []⟩

def undividedImage : SymbolImage :=
  ⟨7, 3, 1, 0, [.table], borrowedSymbols, []⟩

theorem undefined_symbols_read_back_borrowed :
    borrowingImage.Storable ⟨.bits64, .little⟩ ∧ turnedImage.Storable ⟨.bits32, .big⟩ ∧
      undividedImage.Storable ⟨.bits32, .little⟩ ∧ ∃ u u' v,
        undefinedSymbols (borrowingImage.bytes ⟨.bits64, .little⟩) = .ok u ∧
        undefinedSymbols (turnedImage.bytes ⟨.bits32, .big⟩) = .ok u' ∧
        undefinedSymbols (undividedImage.bytes ⟨.bits32, .little⟩) = .ok v ∧
        u.names = some ["_read", "_open", "_read"] ∧ u.symhash ≠ "" ∧ u.symhash = u'.symhash ∧
        v.names = none ∧ v.symhash = "" := by
  have h : borrowingImage.Storable ⟨.bits64, .little⟩ :=
    ⟨by decide +kernel, by decide +kernel, by decide +kernel⟩
  have h' : turnedImage.Storable ⟨.bits32, .big⟩ :=
    ⟨by decide +kernel, by decide +kernel, by decide +kernel⟩
  have hv : undividedImage.Storable ⟨.bits32, .little⟩ :=
    ⟨by decide +kernel, by decide +kernel, by decide +kernel⟩
  obtain ⟨u, u', hu, hu', -, hnames, hempty, -, hsame⟩ := undefined_symbols_read_back _ _ _ _ h h'
  obtain ⟨v, _, hv', -, -, hnone, hempty', -, -⟩ := undefined_symbols_read_back _ _ _ _ hv h
  refine ⟨h, h', hv, u, u', v, hu, hu', hv', hnames, ?_, ?_, hnone, ?_⟩
  · exact fun hhash => hempty.mp hhash (by decide)
  · exact hsame (by decide) ((List.reverse_perm borrowedSymbols).symm.map _)
  · exact hempty'.mpr (by decide)

end Hallmark.Proofs
