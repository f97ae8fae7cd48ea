import Hallmark.Pe.Image
import Hallmark.Proofs.ImportAcceptance
import Hallmark.Proofs.ResourceLeaves

/-!
# Structures of an image and the sections that hold them

The import table and the resource tree of an image are found in the first section that is mapped over
their address, or, for resources, in the section that is named for them. All addresses in them are
resolved as this section maps them, wherever in the section the structure starts.
-/

namespace Hallmark.Proofs
open Pe

/-- The section is mapped over the address. -/
def Maps (rva : UInt32) (s : SectionHeader) : Prop :=
  s.virtualAddress.toNat ≤ rva.toNat ∧
    rva.toNat < s.virtualAddress.toNat + s.virtualSize.toNat

/-- The first section of the image with a property, and the bytes that the file holds for it. -/
structure FirstSection (image : Image) (data : Bytes) (p : SectionHeader → Prop)
    (s : SectionHeader) (bytes : Bytes) : Prop where
  first : ∃ i : Nat, image.sections[i]? = some s ∧ ∀ j < i, ∀ t, image.sections[j]? = some t → ¬p t
  chosen : p s
  stored : bytes = data.extract s.rawOffset.toNat
    (s.rawOffset.toNat + min s.virtualSize.toNat s.rawSize.toNat)
  size : bytes.size = min s.virtualSize.toNat s.rawSize.toNat

/-- The directory with the given number is not empty and has the given address. -/
def DirectoryIs (image : Image) (index : Nat) (rva : UInt32) : Prop :=
  ∃ dir, image.directory? index = some dir ∧ dir.size ≠ 0 ∧ dir.rva = rva

/-- An import table with the section that its directory lies in. -/
structure MappedImports (image : Image) (data : Bytes) (dir : ImportDirectory)
    (s : SectionHeader) : Prop where
  directory : DirectoryIs image 1 dir.directoryRva
  holder : FirstSection image data (Maps dir.directoryRva) s dir.bytes
  sectionRva : dir.sectionRva = s.virtualAddress

/-- A resource tree with the section that it lies in, from its directory on or as a whole. -/
inductive MappedTree (image : Image) (data : Bytes) (tree : ResourceSection) (s : SectionHeader)
    (bytes : Bytes) : Prop
  | directory : DirectoryIs image 2 tree.virtualAddress →
      FirstSection image data (Maps tree.virtualAddress) s bytes →
      tree.virtualAddress.toNat - s.virtualAddress.toNat ≤ bytes.size →
      tree.bytes = bytes.extract (tree.virtualAddress.toNat - s.virtualAddress.toNat) bytes.size →
      MappedTree image data tree s bytes
  | named : FirstSection image data (fun s => s.rawName = Bytes.ofString ".rsrc") s bytes →
      tree = ⟨bytes, s.virtualAddress⟩ → MappedTree image data tree s bytes

/-- The data of a leaf are what the section holds at the address in the record of the leaf. -/
def LeafMapped (tree : ResourceSection) (s : SectionHeader) (bytes : Bytes) (f : DirectoryEntry)
    (leaf : ResourceLeaf) : Prop :=
  ∃ rva size, Bytes.u32? tree.bytes f.target.toNat = some rva ∧
    Bytes.u32? tree.bytes (f.target.toNat + 4) = some size ∧ s.virtualAddress ≤ rva ∧
    rva.toNat - s.virtualAddress.toNat + size.toNat ≤ bytes.size ∧
    leaf.data = bytes.extract (rva.toNat - s.virtualAddress.toNat)
      (rva.toNat - s.virtualAddress.toNat + size.toNat)

/-! ## Sections -/

section Image
variable {image : Image} {data : Bytes} {sections : List Section}

lemma contains_iff {s : SectionHeader} {rva : UInt32} : s.contains rva = true ↔ Maps rva s := by
  rw [SectionHeader.contains, extentContains, Bool.and_eq_true, decide_eq_true_iff,
    decide_eq_true_iff, UInt32.le_iff_toNat_le, Maps]

lemma range?_some {offset len : Nat} {bytes : Bytes}
    (h : Bytes.range? data offset len = some bytes) :
    bytes = data.extract offset (offset + len) ∧ bytes.size = len := by
  rw [Bytes.range?, Bytes.slice?] at h
  split_ifs at h with hempty hinside
  · cases h
    simp [hempty]
  · cases h
    exact ⟨rfl, by rw [Array.size_extract_of_le hinside, Nat.add_sub_cancel_left]⟩

lemma load_ok {s : SectionHeader} {l : Section} (h : s.load data = .ok l) :
    l.toSectionHeader = s ∧ Bytes.range? data s.rawOffset.toNat s.fileSize = some l.bytes := by
  rw [SectionHeader.load] at h
  cases hrange : Bytes.range? data s.rawOffset.toNat s.fileSize with
  | none => simp [hrange] at h
  | some bytes =>
    simp only [hrange, Except.ok.injEq] at h
    cases h
    exact ⟨rfl, rfl⟩

lemma mapM_load_ok {headers : List SectionHeader}
    (h : headers.mapM (SectionHeader.load data) = .ok sections) :
    sections.map Section.toSectionHeader = headers ∧
      ∀ l ∈ sections, Bytes.range? data l.rawOffset.toNat l.fileSize = some l.bytes := by
  induction headers generalizing sections with
  | nil =>
    cases h
    exact ⟨rfl, by simp⟩
  | cons s headers ih =>
    rw [List.mapM_cons] at h
    simp only [bind_ok] at h
    obtain ⟨l, hl, rest, hrest, heq⟩ := h
    cases heq
    obtain ⟨rfl, hrange⟩ := load_ok hl
    obtain ⟨hheaders, hranges⟩ := ih hrest
    exact ⟨by rw [List.map_cons, hheaders], List.forall_mem_cons.mpr ⟨hrange, hranges⟩⟩

lemma firstSection_of_find {p : SectionHeader → Prop} {q : Section → Bool} {s : Section}
    (hload : image.loadSections data = .ok sections) (hq : ∀ l, q l = true ↔ p l.toSectionHeader)
    (h : sections.find? q = some s) :
    FirstSection image data p s.toSectionHeader s.bytes := by
  obtain ⟨hheaders, hranges⟩ := mapM_load_ok hload
  obtain ⟨hchosen, i, hi, hsection, hbefore⟩ := List.find?_eq_some_iff_getElem.mp h
  obtain ⟨hstored, hsize⟩ := range?_some (hranges s (List.mem_of_find?_eq_some h))
  refine ⟨⟨i, ?_, ?_⟩, (hq s).mp hchosen, hstored, hsize⟩
  · rw [← hheaders, List.getElem?_map, List.getElem?_eq_getElem hi, hsection, Option.map_some]
  · intro j hj t ht hp
    rw [← hheaders, List.getElem?_map, List.getElem?_eq_getElem (hj.trans hi), Option.map_some,
      Option.some.injEq] at ht
    have hnot := hbefore j hj
    rw [(hq _).mpr (by rwa [ht])] at hnot
    cases hnot

lemma locate?_some {index : Nat} {s : Section} {rva : UInt32}
    (hload : image.loadSections data = .ok sections)
    (h : image.locate? sections index = some (s, rva)) :
    DirectoryIs image index rva ∧ FirstSection image data (Maps rva) s.toSectionHeader s.bytes := by
  simp only [Image.locate?, Option.bind_eq_bind, Option.bind_eq_some_iff] at h
  obtain ⟨dir, hdir, h⟩ := h
  split_ifs at h with hempty
  · cases h
  · obtain ⟨holder, hfind, h⟩ := Option.bind_eq_some_iff.mp h
    cases h
    exact ⟨⟨dir, hdir, hempty, rfl⟩, firstSection_of_find hload (fun l => contains_iff) hfind⟩

lemma imports?_some {dir : ImportDirectory} (hload : image.loadSections data = .ok sections)
    (h : image.imports? sections = some dir) : ∃ s, MappedImports image data dir s := by
  obtain ⟨⟨holder, rva⟩, hlocated, rfl⟩ := Option.map_eq_some_iff.mp h
  obtain ⟨hdirectory, hholder⟩ := locate?_some hload hlocated
  exact ⟨holder.toSectionHeader, hdirectory, hholder, rfl⟩

lemma locatedResources?_some {tree : ResourceSection}
    (hload : image.loadSections data = .ok sections)
    (h : image.locatedResources? sections = some tree) :
    ∃ s bytes, MappedTree image data tree s bytes := by
  simp only [Image.locatedResources?, Option.bind_eq_bind, Option.bind_eq_some_iff] at h
  obtain ⟨⟨holder, rva⟩, hlocated, bytes, hbytes, htree⟩ := h
  cases htree
  obtain ⟨hdirectory, hholder⟩ := locate?_some hload hlocated
  rw [Bytes.from?] at hbytes
  split_ifs at hbytes with hinside
  cases hbytes
  exact ⟨holder.toSectionHeader, holder.bytes, .directory hdirectory hholder hinside rfl⟩

lemma resources?_some {tree : ResourceSection} (hload : image.loadSections data = .ok sections)
    (h : image.resources? sections = some tree) :
    ∃ s bytes, MappedTree image data tree s bytes := by
  rcases Option.or_eq_some_iff.mp h with hlocated | ⟨-, hnamed⟩
  · exact locatedResources?_some hload hlocated
  · obtain ⟨holder, hfind, rfl⟩ := Option.map_eq_some_iff.mp hnamed
    exact ⟨holder.toSectionHeader, holder.bytes,
      .named (firstSection_of_find hload (fun l => beq_iff_eq) hfind) rfl⟩

/-! ## Addresses -/

lemma MappedTree.rebased {tree : ResourceSection} {s : SectionHeader} {bytes : Bytes}
    (h : MappedTree image data tree s bytes) : s.virtualAddress ≤ tree.virtualAddress ∧
      tree.virtualAddress.toNat - s.virtualAddress.toNat ≤ bytes.size ∧
      tree.bytes = bytes.extract (tree.virtualAddress.toNat - s.virtualAddress.toNat)
        bytes.size := by
  cases h with
  | directory _ hholder hinside hbytes =>
    exact ⟨UInt32.le_iff_toNat_le.mpr hholder.chosen.1, hinside, hbytes⟩
  | named _ htree =>
    subst htree
    simp

/-- Rebasing a section to the start of a tree in it moves no data. -/
lemma MappedTree.leafMapped {tree : ResourceSection} {s : SectionHeader} {bytes : Bytes}
    {options : Options} {d f : DirectoryEntry} {leaf : ResourceLeaf}
    (h : MappedTree image data tree s bytes) (hleaf : LeafOf tree options d f leaf) :
    LeafMapped tree s bytes f leaf := by
  obtain ⟨hbase, hinside, hbytes⟩ := h.rebased
  obtain ⟨rva, size, -, hrva, hsize, habove, hfits, hdata, -⟩ := hleaf.record
  have hbase' := UInt32.le_iff_toNat_le.mp hbase
  have habove' := UInt32.le_iff_toNat_le.mp habove
  rw [hbytes, Array.size_extract, Nat.min_self] at hfits
  refine ⟨rva, size, hrva, hsize, UInt32.le_trans hbase habove, by omega, ?_⟩
  -- The start of the tree in the section makes up for the address that the tree is based at.
  rw [hdata, hbytes, Array.extract_extract]
  congr 1
  · omega
  · omega

lemma nameFault_invalidRva {dir : ImportDirectory} {rva rva' : UInt32} {skip : Nat}
    (h : NameFault dir rva skip (.invalidRva rva')) : rva' < dir.sectionRva := by
  cases h with
  | below h => exact h

lemma thunkFault_invalidRva {dir : ImportDirectory} {limit count offset : Nat} {rva : UInt32}
    (h : ThunkFault dir limit count offset (.invalidRva rva)) : rva < dir.sectionRva := by
  cases h with
  | name _ _ _ h => exact nameFault_invalidRva h

/-- An import table fails with an address as invalid only when it is below the section. -/
lemma tableFault_invalidRva {dir : ImportDirectory} {limit : Nat} {rva : UInt32}
    (h : TableFault dir limit (.invalidRva rva)) : rva < dir.sectionRva := by
  cases h with
  | below h => exact h
  | descriptor _ _ _ _ h =>
    cases h with
    | library _ h => exact nameFault_invalidRva h
    | lookup _ _ h => exact h
    | thunk _ _ _ _ _ h => exact thunkFault_invalidRva h

lemma MappedImports.directory_valid {dir : ImportDirectory} {s : SectionHeader}
    (h : MappedImports image data dir s) (options : Options) :
    dir.entries options ≠ .error (.invalidRva dir.directoryRva) := by
  intro herror
  have hbelow := tableFault_invalidRva (entries_error_iff.mp herror)
  have habove := h.holder.chosen.1
  rw [← h.sectionRva] at habove
  exact absurd (UInt32.lt_iff_toNat_lt.mp hbelow) (Nat.not_lt.mpr habove)

end Image

/-! ## Files -/

lemma inputs_ofBytes {data : Bytes} {inputs : Inputs} (h : Inputs.ofBytes data = .ok inputs) :
    ∃ words image sections, FileKind.ofBytes data = .ok (.pe words) ∧
      Image.ofBytes words data = .ok image ∧ image.loadSections data = .ok sections ∧
      inputs.sections = sections.map Section.summary ∧
      inputs.imports = image.imports? sections ∧ inputs.resources = image.resources? sections := by
  have hread : Inputs.read data = .ok inputs := by
    unfold Inputs.ofBytes at h
    cases hread : Inputs.read data with
    | error fault => simp [hread] at h
    | ok found => simpa [hread] using h
  unfold Inputs.read at hread
  obtain ⟨kind, hkind, hread⟩ := bind_ok.mp hread
  cases kind with
  | pe words =>
    obtain ⟨image, himage, hread⟩ := bind_ok.mp hread
    obtain ⟨sections, hsections, hread⟩ := bind_ok.mp hread
    cases hread
    exact ⟨words, image, sections, hkind, himage, hsections, rfl, rfl, rfl⟩
  | _ => cases hread

/-- The structures that are located in an image lie in the first section that is mapped over their
address, or in the first one named for resources, with the bytes and the address of this section. The
walk over the imports never fails for the address of their directory, and the data of each resource
are what the section holds at the address that is stored for them. -/
theorem located_structures_resolve (data : Bytes) (inputs : Inputs)
    (h : Inputs.ofBytes data = .ok inputs) :
    ∃ words image, FileKind.ofBytes data = .ok (.pe words) ∧
      Image.ofBytes words data = .ok image ∧
      inputs.sections.map (fun s => (s.virtualAddress, s.virtualSize)) =
        image.sections.map (fun s => (s.virtualAddress, s.virtualSize)) ∧
      (∀ dir, inputs.imports = some dir → (∃ s, MappedImports image data dir s) ∧
        ∀ options, dir.entries options ≠ .error (.invalidRva dir.directoryRva)) ∧
      ∀ tree, inputs.resources = some tree → ∃ s bytes, MappedTree image data tree s bytes ∧
        s.virtualAddress ≤ tree.virtualAddress ∧
        ∀ options ls, ResourceTree.leaves tree options = .ok ls →
          List.Forall₂ (fun p leaf => ∃ i j k d e f, p = [i, j, k] ∧ OnPath tree i j k d e f ∧
            LeafMapped tree s bytes f leaf) (paths tree 2 0) ls := by
  obtain ⟨words, image, sections, hkind, himage, hload, hsections, himports, hresources⟩ :=
    inputs_ofBytes h
  refine ⟨words, image, hkind, himage, ?_, ?_, ?_⟩
  · rw [hsections, ← (mapM_load_ok hload).1, List.map_map, List.map_map]
    rfl
  · intro dir hdir
    obtain ⟨s, hmapped⟩ := imports?_some hload (himports.symm.trans hdir)
    exact ⟨⟨s, hmapped⟩, hmapped.directory_valid⟩
  · intro tree htree
    obtain ⟨s, bytes, hmapped⟩ := resources?_some hload (hresources.symm.trans htree)
    refine ⟨s, bytes, hmapped, hmapped.rebased.1, ?_⟩
    intro options ls hls
    apply (leaves_on_paths hls).imp
    rintro p leaf ⟨i, j, k, d, e, f, hp, hpath, hleaf⟩
    exact ⟨i, j, k, d, e, f, hp, hpath, hmapped.leafMapped hleaf⟩

/-- The content of a section: an import table without entries and, behind it, a tree with one leaf. -/
def smallContent : List UInt8 :=
  ([0, 0, 0, 0, 0, 0, 0, 0, 0x00010000, 16, 0x80000018, 0, 0, 0, 0x00010000, 1, 0x80000030,
    0, 0, 0, 0x00010000, 1033, 72, 0x106c, 3, 0, 0].flatMap (littleOctets 4)) ++ [97, 98, 99]

/-- An image with two sections over the same addresses, whose second one is named for resources. -/
def overlappingImage : Bytes :=
  (([0x5a4d, 0, 0, 0, 0, 0, 0, 0, 0, 0, 0, 0, 0, 0, 0, 64, 0x4550, 0x0002014c, 0, 0, 0, 120,
    0x10b, 0, 0, 0, 0, 0, 0, 0, 0, 0, 0, 0, 0, 0, 0, 0, 0, 0, 0, 0, 0, 0, 0, 3,
    0, 0, 0x1000, 20, 0x1014, 88, 0x61, 0, 0x3000, 0x1000, 111, 288, 0, 0, 0, 0,
    0x7273722e, 0x63, 0x1000, 0x1000, 0, 0, 0, 0, 0, 0].flatMap (littleOctets 4)) ++
    smallContent).toArray

theorem located_structures_resolve_overlapping :
    ∃ inputs dir tree ls, Inputs.ofBytes overlappingImage = .ok inputs ∧
      inputs.imports = some dir ∧ dir.directoryRva = 0x1000 ∧
      (∀ options, dir.entries options ≠ .error (.invalidRva dir.directoryRva)) ∧
      inputs.resources = some tree ∧ tree.virtualAddress = 0x1014 ∧
      ResourceTree.leaves tree {} = .ok ls ∧ ls.map ResourceLeaf.data = [#[97, 98, 99]] ∧
      ∃ s bytes, s.virtualAddress ≤ tree.virtualAddress ∧
        List.Forall₂ (fun p leaf => ∃ i j k d e f, p = [i, j, k] ∧ OnPath tree i j k d e f ∧
          LeafMapped tree s bytes f leaf) (paths tree 2 0) ls := by
  have hread : (Inputs.ofBytes overlappingImage).toOption.any (fun inputs =>
      inputs.imports.any (fun dir => dir.directoryRva == 0x1000) &&
        inputs.resources.any fun tree => tree.virtualAddress == 0x1014 &&
          (ResourceTree.leaves tree {}).toOption.any fun ls =>
            ls.map ResourceLeaf.data == [#[97, 98, 99]]) := by
    decide +kernel
  simp only [Option.any_eq_true, toOption_eq_some, Bool.and_eq_true, beq_iff_eq] at hread
  obtain ⟨inputs, h, ⟨dir, hdir, hrva⟩, tree, htree, hbase, ls, hls, hdata⟩ := hread
  obtain ⟨_, _, -, -, -, himports, hresources⟩ :=
    located_structures_resolve overlappingImage inputs h
  obtain ⟨s, bytes, -, hbelow, hmapped⟩ := hresources tree htree
  exact ⟨inputs, dir, tree, ls, h, hdir, hrva, (himports dir hdir).2, htree, hbase, hls, hdata,
    s, bytes, hbelow, hmapped {} ls hls⟩

end Hallmark.Proofs
