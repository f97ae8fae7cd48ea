import Hallmark.Proofs.ImportSections
import Hallmark.Proofs.PlacedBytes
import Hallmark.Proofs.StatefulRuns
import Hallmark.Proofs.Utf8Texts
import Mathlib.Data.List.Forall2

/-!
# Import tables are read back as they were written

Whatever libraries a section asks for functions, by name or by number, its table is read as one
entry for each request and in order. Neither the base of the section nor the width of its thunks
shows in the entries.
-/

namespace Hallmark.Proofs
open Pe

/-! ## Walks -/

section Walks
variable {dir : ImportDirectory} {limit offset : Nat} {library : Bytes}

lemma pointer_ok {n : Nat} (h : Placed dir.bytes offset (littleOctets dir.words.octets n))
    (hn : n < 256 ^ dir.words.octets) : dir.pointer offset = .ok n :=
  checked_ok.mpr (h.nat? hn)

lemma walkThunks_stop (h : Placed dir.bytes offset (littleOctets dir.words.octets 0))
    (acc : Array ImportEntry) :
    (dir.walkThunks limit library offset).run acc = .ok () acc := by
  have hzero : 0 < 256 ^ dir.words.octets := Nat.pow_pos (by decide)
  have hpointer := pointer_ok h hzero
  have hroom := h.le_size
  rw [length_littleOctets] at hroom
  have hpos := dir.words.octets_pos
  rw [ImportDirectory.walkThunks, if_pos (by omega), hpointer]
  rfl

lemma walkThunks_step {n : Nat} {target : ImportTarget} {acc : Array ImportEntry}
    (h : Placed dir.bytes offset (littleOctets dir.words.octets n))
    (hn : n < 256 ^ dir.words.octets) (hne : n ≠ 0) (htarget : dir.target n = .ok target)
    (hlimit : acc.size < limit) :
    (dir.walkThunks limit library offset).run acc =
      (dir.walkThunks limit library (offset + dir.words.octets)).run
        (acc.push ⟨library, target⟩) := by
  have hpointer := pointer_ok h hn
  have hroom := h.le_size
  rw [length_littleOctets] at hroom
  have hpos := dir.words.octets_pos
  rw [ImportDirectory.walkThunks, if_pos (by omega), hpointer, ofExcept_ok_bind, if_pos hne,
    htarget, ofExcept_ok_bind, EStateM.run_bind]
  simp only [EStateM.run_get]
  rw [if_neg (Nat.not_le.mpr hlimit)]
  rfl

/-- What a thunk stands for when it is read. -/
def ReadAs (dir : ImportDirectory) (n : Nat) (target : ImportTarget) : Prop :=
  n ≠ 0 ∧ n < 256 ^ dir.words.octets ∧ dir.target n = .ok target

lemma walkThunks_run {ns : List Nat} {targets : List ImportTarget} {acc : Array ImportEntry}
    (htargets : List.Forall₂ (ReadAs dir) ns targets)
    (hplaced : Placed dir.bytes offset
      ((ns ++ [0]).flatMap (littleOctets dir.words.octets)))
    (hlimit : acc.size + targets.length ≤ limit) :
    (dir.walkThunks limit library offset).run acc =
      .ok () (acc ++ (targets.map (⟨library, ·⟩)).toArray) := by
  induction htargets generalizing offset acc with
  | nil =>
    have hstop : Placed dir.bytes offset (littleOctets dir.words.octets 0) := by
      simpa using hplaced
    rw [walkThunks_stop hstop]
    simp
  | @cons n target ns targets hread htail ih =>
    obtain ⟨hne, hn, htarget⟩ := hread
    rw [List.cons_append, List.flatMap_cons] at hplaced
    have hrest := hplaced.right
    rw [length_littleOctets] at hrest
    rw [List.length_cons] at hlimit
    rw [walkThunks_step hplaced.left hn hne htarget (by omega), ih hrest]
    · simp
    · rw [Array.size_push]
      omega

end Walks

/-! ## Requests -/

/-- The texts hold no zero character, and the ordinals fit in a thunk. -/
def Request.Writable (words : WordSize) : Request → Prop
  | .name text => '\x00' ∉ text.toList
  | .ordinal number => number.toNat < ordinalRange words

instance (words : WordSize) (r : Request) : Decidable (r.Writable words) :=
  match r with
  | .name text => inferInstanceAs (Decidable ('\x00' ∉ text.toList))
  | .ordinal number => inferInstanceAs (Decidable (number.toNat < ordinalRange words))

def Request.target : Request → ImportTarget
  | .name text => .name (Bytes.ofString text)
  | .ordinal number => .ordinal number

lemma terminated_placed {data : Bytes} {offset : Nat} {text : String}
    (h : Placed data offset (terminated text)) (htext : '\x00' ∉ text.toList) :
    cstring data offset = .ok (Bytes.ofString text) :=
  h.cstring (zero_not_mem_ofString htext)

section Requests
variable {dir : ImportDirectory} {base : UInt32} {place : Nat}

lemma toNat_rva (h : base.toNat + place < 2 ^ 32) :
    (UInt32.ofNat (base.toNat + place)).toNat = base.toNat + place :=
  UInt32.toNat_ofNat_of_lt' h

lemma rvaOffset_add (h : base.toNat + place < 2 ^ 32) :
    rvaOffset (UInt32.ofNat (base.toNat + place)) base = .ok place := by
  rw [rvaOffset_ok, UInt32.le_iff_toNat_le, toNat_rva h]
  omega

lemma ordinalFlag_or {words : WordSize} {n : Nat} (hn : n < ordinalRange words) :
    ordinalFlag words ||| n = ordinalFlag words + n := by
  cases words with
  | bits32 =>
    have hlow : n < 2 ^ 31 := Nat.lt_trans hn (by decide)
    exact (Nat.two_pow_add_eq_or_of_lt hlow 1).symm
  | bits64 =>
    have hlow : n < 2 ^ 63 := Nat.lt_trans hn (by decide)
    exact (Nat.two_pow_add_eq_or_of_lt hlow 1).symm

/-- The flag leaves room for every ordinal, below it and above. -/
lemma ordinalFlag_add {words : WordSize} {n : Nat} (hn : n < ordinalRange words) :
    0 < ordinalFlag words + n ∧ ordinalFlag words + n < 256 ^ words.octets ∧
      (ordinalFlag words + n) % ordinalRange words = n := by
  cases words <;>
  · simp only [ordinalFlag, ordinalRange, WordSize.octets, UInt16.size, UInt32.size] at hn ⊢
    omega

lemma readAs_ordinal {number : UInt32} (hnumber : number.toNat < ordinalRange dir.words) :
    ReadAs dir (ordinalFlag dir.words ||| number.toNat) (.ordinal number) := by
  obtain ⟨hpos, hfits, hnumber'⟩ := ordinalFlag_add hnumber
  rw [ordinalFlag_or hnumber]
  refine ⟨Nat.pos_iff_ne_zero.mp hpos, hfits, ?_⟩
  rw [ImportDirectory.target, if_pos (Nat.le_add_right _ _), hnumber', UInt32.ofNat_toNat]

lemma readAs_name {text : String} (htext : '\x00' ∉ text.toList) (hplace : 0 < place)
    (hplaced : Placed dir.bytes place ((Request.name text).hint place))
    (hroom : dir.sectionRva.toNat + dir.bytes.size < 2 ^ 31) :
    ReadAs dir (dir.sectionRva.toNat + (place + place % 2)) (.name (Bytes.ofString text)) := by
  have hname : Placed dir.bytes (place + place % 2 + 2) (terminated text) := by
    have hskip := hplaced.right.right
    rwa [List.length_replicate] at hskip
  have hend := hname.le_size
  -- In either width an address below 2 ^ 31 is not taken for an ordinal.
  have hflag : 2 ^ 31 ≤ ordinalFlag dir.words := by
    cases dir.words <;> decide
  have hwide : 2 ^ 31 ≤ 256 ^ dir.words.octets := by
    cases dir.words <;> decide
  refine ⟨by omega, by omega, ?_⟩
  have hrva : dir.sectionRva.toNat + (place + place % 2) < UInt32.size := by
    simp only [UInt32.size]
    omega
  rw [ImportDirectory.target, if_neg (by omega), Nat.mod_eq_of_lt hrva,
    rvaOffset_add (by omega)]
  simp only [bind, Except.bind, terminated_placed hname htext]
  rfl

lemma hints_readAs {rs : List Request} (hrs : ∀ r ∈ rs, r.Writable dir.words) (hplace : 0 < place)
    (hplaced : Placed dir.bytes place (hints place rs))
    (hroom : dir.sectionRva.toNat + dir.bytes.size < 2 ^ 31) :
    List.Forall₂ (ReadAs dir) (thunks dir.words dir.sectionRva.toNat place rs)
      (rs.map Request.target) := by
  induction rs generalizing place with
  | nil => exact .nil
  | cons r rs ih =>
    have hrest := ih (fun s hs => hrs s (List.mem_cons_of_mem r hs)) (by omega) hplaced.right
    refine .cons ?_ hrest
    have hr := hrs r List.mem_cons_self
    cases r with
    | name text => exact readAs_name hr hplace hplaced.left hroom
    | ordinal number => exact readAs_ordinal hr

end Requests

/-! ## Libraries -/

structure LibraryRequests.Writable (words : WordSize) (l : LibraryRequests) : Prop where
  name : '\x00' ∉ l.name.toList
  requests : ∀ r ∈ l.requests, r.Writable words

/-- The entries that a library's requests are read back as. -/
def LibraryRequests.entries (l : LibraryRequests) : List ImportEntry :=
  (l.requests.map Request.target).map (⟨Bytes.ofString l.name, ·⟩)

lemma block_placed {words : WordSize} {base place : Nat} {data : Bytes} {l : LibraryRequests}
    (h : Placed data place (l.block words base place)) :
    Placed data place (thunkTable words base (l.hintsAt words place) l.requests) ∧
      Placed data (l.hintsAt words place) (hints (l.hintsAt words place) l.requests) ∧
      Placed data (l.nameAt words place) (terminated l.name) := by
  have hrest := h.right
  rw [length_thunkTable] at hrest
  exact ⟨h.left, hrest.left, hrest.right⟩

section Descriptors
variable {dir : ImportDirectory} {limit offset place : Nat} {acc : Array ImportEntry}

lemma walkDescriptors_stop (h : Placed dir.bytes offset (List.replicate 20 0)) :
    (dir.walkDescriptors limit offset).run acc = .ok () acc := by
  have hroom : offset + ImportDirectory.descriptorSize ≤ dir.bytes.size := h.le_size
  have hsplit : Placed dir.bytes offset (littleOctets 4 0 ++ List.replicate 16 0) := h
  have hlookup : u32 dir.bytes offset = .ok 0 := hsplit.left.u32 (by decide)
  rw [ImportDirectory.walkDescriptors, if_pos hroom, hlookup]
  rfl

lemma walkDescriptors_step {l : LibraryRequests} (hplace : 0 < place)
    (hdescriptor : Placed dir.bytes offset
      (l.descriptor dir.words dir.sectionRva.toNat place))
    (hblock : Placed dir.bytes place (l.block dir.words dir.sectionRva.toNat place))
    (hroom : dir.sectionRva.toNat + dir.bytes.size < 2 ^ 31) (hl : l.Writable dir.words)
    (hlimit : acc.size + l.entries.length ≤ limit) :
    (dir.walkDescriptors limit offset).run acc =
      (dir.walkDescriptors limit (offset + 20)).run (acc ++ l.entries.toArray) := by
  obtain ⟨htable, hhints, hname⟩ := block_placed hblock
  have htableEnd := htable.le_size
  have hnameEnd := hname.le_size
  have hhintsAt : place ≤ l.hintsAt dir.words place := Nat.le_add_right _ _
  have hsize : offset + ImportDirectory.descriptorSize ≤ dir.bytes.size := by
    have hend := hdescriptor.le_size
    rwa [length_descriptor] at hend
  -- All addresses are below 2 ^ 31, so none wraps around, and that of the thunks is not zero.
  have hlookup := hdescriptor.left.u32 (by omega)
  have hnameRva : u32 dir.bytes (offset + 12) =
      .ok (UInt32.ofNat (dir.sectionRva.toNat + l.nameAt dir.words place)) := by
    have hfield := hdescriptor.right.right.left
    rw [length_littleOctets, List.length_replicate, Nat.add_assoc] at hfield
    exact hfield.u32 (by omega)
  have hlibrary : (rvaOffset (UInt32.ofNat (dir.sectionRva.toNat + l.nameAt dir.words place))
      dir.sectionRva >>= cstring dir.bytes) = .ok (Bytes.ofString l.name) := by
    rw [rvaOffset_add (by omega)]
    exact terminated_placed hname hl.name
  have hne : UInt32.ofNat (dir.sectionRva.toNat + place) ≠ 0 := by
    intro hzero
    have hvalue := congrArg UInt32.toNat hzero
    rw [toNat_rva (by omega), UInt32.toNat_zero] at hvalue
    omega
  have hthunks := hints_readAs hl.requests (Nat.lt_of_lt_of_le hplace hhintsAt) hhints hroom
  rw [LibraryRequests.entries, List.length_map] at hlimit
  rw [ImportDirectory.walkDescriptors, if_pos hsize, hlookup, ofExcept_ok_bind, if_pos hne,
    hnameRva, ofExcept_ok_bind, hlibrary, ofExcept_ok_bind, rvaOffset_add (by omega),
    ofExcept_ok_bind, EStateM.run_bind, walkThunks_run hthunks htable hlimit]
  rfl

lemma walkDescriptors_run {ls : List LibraryRequests} (hplace : 0 < place)
    (hdescriptors : Placed dir.bytes offset
      (descriptors dir.words dir.sectionRva.toNat place ls ++ List.replicate 20 0))
    (hblocks : Placed dir.bytes place (libraryBlocks dir.words dir.sectionRva.toNat place ls))
    (hroom : dir.sectionRva.toNat + dir.bytes.size < 2 ^ 31)
    (hls : ∀ l ∈ ls, l.Writable dir.words)
    (hlimit : acc.size + (ls.flatMap LibraryRequests.entries).length ≤ limit) :
    (dir.walkDescriptors limit offset).run acc =
      .ok () (acc ++ (ls.flatMap LibraryRequests.entries).toArray) := by
  induction ls generalizing offset place acc with
  | nil =>
    rw [walkDescriptors_stop hdescriptors]
    simp
  | cons l ls ih =>
    rw [descriptors, List.append_assoc] at hdescriptors
    rw [List.flatMap_cons, List.length_append] at hlimit
    have hrest := hdescriptors.right
    rw [length_descriptor] at hrest
    have hnext := hblocks.right
    rw [length_block] at hnext
    have hstop : 0 < l.stop dir.words place := by
      have hblock : place + (l.block dir.words dir.sectionRva.toNat place).length =
          l.stop dir.words place := length_block l
      omega
    rw [walkDescriptors_step hplace hdescriptors.left hblocks.left hroom
      (hls l List.mem_cons_self) (by omega), ih hstop hrest hnext
      (fun m hm => hls m (List.mem_cons_of_mem l hm))]
    · simp
    · have hsize : (acc ++ l.entries.toArray).size = acc.size + l.entries.length := by simp
      omega

end Descriptors

/-! ## Tables -/

/-- The text that a request names, if it names one. -/
def Request.name? : Request → Option String
  | .name text => some text
  | .ordinal _ => none

def Request.ordinal? : Request → Option UInt32
  | .name _ => none
  | .ordinal number => some number

/-- The name of the requested function in the import hash. -/
def Request.function (library : String) : Request → String
  | .name text => LetterCase.lower text
  | .ordinal number => LetterCase.lower (ordinalName (libraryName library) number)

/-- The entry says which library is asked for what. -/
structure Tells (library : String) (r : Request) (e : ImportEntry) : Prop where
  rawLibrary : e.rawLibrary = Bytes.ofString library
  dllName : e.dllName = library
  normalised : e.library = libraryName library
  rawName : e.rawName? = r.name?.map Bytes.ofString
  name : e.name? = r.name?
  ordinal : e.ordinal? = r.ordinal?
  function : e.function = r.function library

lemma tells_target (library : String) (r : Request) :
    Tells library r ⟨Bytes.ofString library, r.target⟩ := by
  have hname : Utf8.lossy (Bytes.ofString library) = library := lossy_ofString library
  have hlibrary : libraryName (Utf8.lossy (Bytes.ofString library)) = libraryName library := by
    rw [hname]
  cases r with
  | name text =>
    refine ⟨rfl, hname, hlibrary, rfl, ?_, rfl, ?_⟩
    · exact congrArg some (lossy_ofString text)
    · exact congrArg LetterCase.lower (lossy_ofString text)
  | ordinal number =>
    refine ⟨rfl, hname, hlibrary, rfl, rfl, rfl, ?_⟩
    exact congrArg (fun name => LetterCase.lower (ordinalName name number)) hlibrary

/-- All requests in the order in which they are written, each with the library that it is for. -/
def allRequests (ls : List LibraryRequests) : List (String × Request) :=
  ls.flatMap fun l => l.requests.map fun r => (l.name, r)

lemma allRequests_tells (ls : List LibraryRequests) :
    List.Forall₂ (fun q e => Tells q.1 q.2 e) (allRequests ls)
      (ls.flatMap LibraryRequests.entries) := by
  induction ls with
  | nil => exact .nil
  | cons l ls ih =>
    refine List.rel_append ?_ ih
    rw [LibraryRequests.entries, List.map_map, List.forall₂_map_left_iff,
      List.forall₂_map_right_iff, List.forall₂_same]
    exact fun r _ => tells_target l.name r

/-- The requests can be written into a section at `base`, below the addresses of ordinals. -/
structure Writable (words : WordSize) (base : UInt32) (ls : List LibraryRequests) : Prop where
  libraries : ∀ l ∈ ls, l.Writable words
  below : base.toNat + (importSection words base ls).size < 2 ^ 31

lemma entries_importDirectory {words : WordSize} {base : UInt32} {ls : List LibraryRequests}
    {options : Options} (hls : Writable words base ls)
    (hlimit : (allRequests ls).length ≤ options.maxImports.toNat) :
    (importDirectory words base ls).entries options =
      .ok (ls.flatMap LibraryRequests.entries) := by
  have hlength := (allRequests_tells ls).length_eq
  have hsection : Placed (importSection words base ls) 0
      (descriptors words base.toNat ((ls.length + 1) * 20) ls ++
        (List.replicate 20 0 ++ libraryBlocks words base.toNat ((ls.length + 1) * 20) ls)) := by
    rw [← toList_importSection]
    exact Placed.self _
  have hblocks := hsection.right.right
  rw [length_descriptors, List.length_replicate, Nat.zero_add, ← Nat.succ_mul] at hblocks
  rw [← List.append_assoc] at hsection
  have hoffset : rvaOffset base base = .ok 0 :=
    rvaOffset_ok.mpr ⟨UInt32.le_refl base, (Nat.sub_self _).symm⟩
  have hwalk : ((importDirectory words base ls).walk options.maxImports.toNat).run #[] =
      .ok () (#[] ++ (ls.flatMap LibraryRequests.entries).toArray) := by
    rw [ImportDirectory.walk, importDirectory, hoffset, ofExcept_ok_bind,
      if_neg (Nat.not_lt_zero _)]
    have hplace : 0 < (ls.length + 1) * 20 := by omega
    refine walkDescriptors_run hplace hsection.left hblocks hls.below hls.libraries ?_
    rw [← hlength]
    simpa using hlimit
  rw [ImportDirectory.entries, hwalk]
  simp

/-- Requests that are written at any base and in either width are read back as the same entries,
one for each request and in order, and so have the same import hash. -/
theorem imports_read_back (ls : List LibraryRequests) (options : Options)
    (hlimit : (allRequests ls).length ≤ options.maxImports.toNat) :
    ∃ es, List.Forall₂ (fun q e => Tells q.1 q.2 e) (allRequests ls) es ∧
      ∀ words base, Writable words base ls →
        (importDirectory words base ls).entries options = .ok es ∧
        ImportHash.ofDirectory (some (importDirectory words base ls)) options =
          .ok (.ofEntries es) := by
  refine ⟨ls.flatMap LibraryRequests.entries, allRequests_tells ls, fun words base hls => ?_⟩
  have hentries := entries_importDirectory hls hlimit
  refine ⟨hentries, ?_⟩
  rw [ImportHash.ofDirectory, hentries]
  rfl

/-- Two libraries that are asked for functions by name and by number, and one that is asked for
none. -/
def mixedRequests : List LibraryRequests :=
  [⟨"KERNEL32.dll", [.name "CreateFileA", .ordinal 7]⟩,
    ⟨"grün.OCX", [.ordinal 0xffff, .name "λ"]⟩, ⟨"", []⟩]

lemma mixedRequests_writable (words : WordSize) : ∀ l ∈ mixedRequests, l.Writable words := by
  intro l hl
  simp only [mixedRequests, List.mem_cons, List.not_mem_nil, or_false] at hl
  cases words <;> obtain rfl | rfl | rfl := hl <;> exact ⟨by decide, by decide⟩

theorem imports_read_back_mixed :
    ∃ es, es.length = 4 ∧
      List.Forall₂ (fun q e => Tells q.1 q.2 e) (allRequests mixedRequests) es ∧
      (importDirectory .bits32 0x3000 mixedRequests).entries { maxImports := 4 } = .ok es ∧
      (importDirectory .bits64 0x40001 mixedRequests).entries { maxImports := 4 } = .ok es := by
  obtain ⟨es, htells, hread⟩ := imports_read_back mixedRequests { maxImports := 4 } (by decide)
  refine ⟨es, ?_, htells, (hread .bits32 0x3000 ⟨?_, ?_⟩).1, (hread .bits64 0x40001 ⟨?_, ?_⟩).1⟩
  · rw [← htells.length_eq]
    rfl
  · exact mixedRequests_writable .bits32
  · decide +kernel
  · exact mixedRequests_writable .bits64
  · decide +kernel

end Hallmark.Proofs
