import Hallmark.Proofs.RecordedErrors
import Hallmark.Proofs.Utf16Texts
import Hallmark.Proofs.VersionExtent

/-!
# Which resources are version resources

Numeric types and named ones share the texts of their labels. A leaf is taken for a version resource
when its type is the number 16, or a name that spells the label of that number, and in no other case.
-/

namespace Hallmark.Proofs
open Pe Pe.ResourceTree

/-! ## Labels of types -/

lemma toString_ne_of_not_isDigit {n : Nat} {s : String} {c : Char} (hc : c ∈ s.toList)
    (hdigit : c.isDigit = false) : toString n ≠ s := by
  intro h
  have hmem : c ∈ Nat.toDigits 10 n := by
    have htext : (toString n).toList = Nat.toDigits 10 n := String.toList_ofList
    rwa [← htext, h]
  rw [Nat.isDigit_of_mem_toDigits (by decide) (by decide) hmem] at hdigit
  cases hdigit

/-- The label of version resources is that of one number. -/
lemma resourceTypeName_eq_version {id : UInt32} :
    resourceTypeName id = VersionStrings.resourceType ↔ id = 16 := by
  constructor
  · intro h
    unfold resourceTypeName at h
    cases hlookup : resourceTypeNames.lookup id with
    | none =>
      -- Other numbers are written in digits, and the label has letters.
      rw [hlookup, Option.getD_none] at h
      exact absurd h (toString_ne_of_not_isDigit (c := 'R') (by decide) (by decide))
    | some name =>
      rw [hlookup, Option.getD_some] at h
      obtain ⟨before, after, hsplit, -⟩ := List.lookup_eq_some_iff.mp hlookup
      have hmem : (id, name) ∈ resourceTypeNames := by
        rw [hsplit]
        exact List.mem_append_right before List.mem_cons_self
      have htable : ∀ e ∈ resourceTypeNames, e.2 = VersionStrings.resourceType → e.1 = 16 := by
        decide
      exact htable _ hmem h
  · rintro rfl
    rfl

/-- The units of the name that a selector of types points to, up to the first zero unit. -/
def nameUnits? (tree : ResourceSection) (selector : UInt32) : Option (List UInt16) := do
  let count ← Bytes.u16? tree.bytes (lowBits selector)
  let name ← Bytes.slice? tree.bytes (lowBits selector + 2) (count.toNat * 2)
  return Utf16.unitsBeforeNul name

/-- True for the number 16, and for names that spell the label of this number. -/
def selectsVersion (tree : ResourceSection) (selector : UInt32) : Bool :=
  if hasHighBit selector then
    nameUnits? tree selector == some (Utf16.encode VersionStrings.resourceType)
  else selector == 16

lemma textBeforeNul_eq_version {name : Bytes} :
    Utf16.textBeforeNul name = VersionStrings.resourceType ↔
      Utf16.unitsBeforeNul name = Utf16.encode VersionStrings.resourceType := by
  rw [Utf16.textBeforeNul, ← String.toList_inj, String.toList_ofList]
  constructor
  · intro h
    have hplain : '\uFFFD' ∉ Utf16.decode (Utf16.unitsBeforeNul name) := by
      rw [h]
      decide
    rw [← encode_decode hplain, h, Utf16.encode]
  · intro h
    rw [h, decode_encode]

/-- A type has the label of version resources exactly when its selector is one of theirs. -/
lemma selects_version_iff {tree : ResourceSection} {selector : UInt32} {text : String}
    (h : Selects tree selector text) :
    text = VersionStrings.resourceType ↔ selectsVersion tree selector := by
  cases h with
  | number hbit =>
    rw [selectsVersion, if_neg (by simp [hbit]), beq_iff_eq]
    exact resourceTypeName_eq_version
  | @name count hbit hcount hinside =>
    rw [selectsVersion, if_pos hbit, beq_iff_eq, textBeforeNul_eq_version, nameUnits?, hcount,
      Option.bind_eq_bind, Option.bind_some, Bytes.slice?, if_pos hinside]
    exact Option.some_inj.symm

/-! ## The leaves below a type -/

/-- True for paths that begin with an entry of version resources. -/
def belowVersion (tree : ResourceSection) : (path : List Nat) → Bool
  | [] => false
  | i :: _ => (Bytes.u32? tree.bytes (16 + i * 8)).any (selectsVersion tree)

/-- The leaves below the entries of version resources, with their paths. -/
def versionLeaves (tree : ResourceSection) (ps : List (List Nat)) (ls : List ResourceLeaf) :
    List (List Nat × ResourceLeaf) :=
  (ps.zip ls).filter fun l => belowVersion tree l.1

section Tree
variable {tree : ResourceSection} {options : Options}

lemma belowVersion_cons {i : Nat} {d : DirectoryEntry} {path : List Nat}
    (h : EntryAt tree 0 i d) : belowVersion tree (i :: path) = selectsVersion tree d.selector := by
  have hselector := h.selector
  rw [Nat.zero_add] at hselector
  rw [belowVersion, hselector, Option.any_some]

lemma filter_of_forall₂ {α β : Type} {p : α → Bool} {q : β → Bool} {as : List α} {bs : List β}
    (h : List.Forall₂ (fun a b => q b = p a) as bs) :
    bs.filter q = ((as.zip bs).filter fun x => p x.1).map Prod.snd := by
  induction h with
  | nil => rfl
  | @cons a b as bs hab _ ih =>
    rw [List.zip_cons_cons]
    cases hp : p a with
    | false => simp [hp, hab, ih]
    | true => simp [hp, hab, ih]

lemma filter_version {ls : List ResourceLeaf} (h : leaves tree options = .ok ls) :
    ls.filter (fun leaf => leaf.typeLabel == VersionStrings.resourceType) =
      (versionLeaves tree (paths tree 2 0) ls).map Prod.snd := by
  apply filter_of_forall₂
  apply (leaves_on_paths h).imp
  rintro p leaf ⟨i, j, k, d, e, f, rfl, hpath, hleaf⟩
  rw [belowVersion_cons hpath.type, Bool.eq_iff_iff, beq_iff_eq]
  exact selects_version_iff hleaf.label

lemma ofLeaves_eq {ls : List ResourceLeaf} {found : List (List Nat × ResourceLeaf)}
    (h : ls.filter (fun leaf => leaf.typeLabel == VersionStrings.resourceType) =
      found.map Prod.snd) :
    VersionStrings.ofLeaves ls = found.head?.elim [] fun l => VersionStrings.ofResource l.2.data := by
  rw [VersionStrings.ofLeaves, ← List.head?_filter, h, List.head?_map]
  cases found.head? <;> rfl

lemma count_version {ls : List ResourceLeaf} :
    (ls.map ResourceLeaf.typeLabel).count VersionStrings.resourceType =
      (ls.filter fun leaf => leaf.typeLabel == VersionStrings.resourceType).length := by
  rw [List.count, List.countP_map, List.countP_eq_length_filter]
  rfl

lemma versionLeaves_eq_nil {ls : List ResourceLeaf} (h : leaves tree options = .ok ls)
    (hnone : ∀ i d, EntryAt tree 0 i d → selectsVersion tree d.selector = false) :
    versionLeaves tree (paths tree 2 0) ls = [] := by
  apply List.filter_eq_nil_iff.mpr
  rintro ⟨p, leaf⟩ hmem
  have hp : p ∈ paths tree 2 0 := (List.of_mem_zip hmem).1
  obtain ⟨i, j, k, d, e, f, rfl, hpath⟩ := (mem_paths_iff h).mp hp
  rw [belowVersion_cons hpath.type, hnone i d hpath.type]
  exact Bool.false_ne_true

section Fingerprint
variable {inputs : Inputs} {config : Config} {ls : List ResourceLeaf}

lemma resourcePart_of_leaves (hon : config.hashes.resources) (htree : inputs.resources = some tree)
    (h : leaves tree config.parse = .ok ls) :
    (PeFingerprint.resourcePart inputs config).1 = some ls :=
  resourcePart_eq_some.mpr ⟨hon, tree, htree, h⟩

lemma versionInfo_of_leaves (hon : config.hashes.resources) (htree : inputs.resources = some tree)
    (h : leaves tree config.parse = .ok ls) :
    (PeFingerprint.ofInputs inputs config).1.versionInfo = VersionStrings.ofLeaves ls := by
  simp only [PeFingerprint.ofInputs, resourcePart_of_leaves hon htree h, Option.getD_some]

lemma resourcesByType_of_leaves (hon : config.hashes.resources)
    (htree : inputs.resources = some tree) (h : leaves tree config.parse = .ok ls)
    (label : String) :
    (valueAt? (PeFingerprint.ofInputs inputs config).1.resourcesByType label).map UInt64.toNat =
      if (ls.map ResourceLeaf.typeLabel).count label = 0 then none
      else some ((ls.map ResourceLeaf.typeLabel).count label) := by
  have hresources : (PeFingerprint.ofInputs inputs config).1.resources = ls := by
    rw [resources_ofInputs, resourcePart_of_leaves hon htree h, Option.getD_some]
  have hcounts : Counts (PeFingerprint.ofInputs inputs config).1.resourcesByType
      ((PeFingerprint.ofInputs inputs config).1.resources.map ResourceLeaf.typeLabel) :=
    ofInputs_counts.1
  rw [hcounts.toNat_valueAt?, hresources]

end Fingerprint

/-- A leaf is labelled as a version resource exactly when it lies below a type whose selector is the
number 16 or a name that spells the label of this number. The version strings are those of the first
such leaf, and the count of the label is the number of these leaves. -/
theorem version_leaves_by_selector (tree : ResourceSection) (options : Options)
    (ls : List ResourceLeaf) (h : leaves tree options = .ok ls) :
    ∃ ps : List (List Nat), ps.Pairwise (List.Lex (· < ·)) ∧
      (∀ p, p ∈ ps ↔ ∃ i j k d e f, p = [i, j, k] ∧ OnPath tree i j k d e f) ∧
      List.Forall₂ (fun p leaf => ∃ i j k d e f, p = [i, j, k] ∧ OnPath tree i j k d e f ∧
        LeafOf tree options d f leaf ∧ belowVersion tree p = selectsVersion tree d.selector ∧
        (leaf.typeLabel = "RT_VERSION" ↔ selectsVersion tree d.selector)) ps ls ∧
      (VersionStrings.ofLeaves ls = (versionLeaves tree ps ls).head?.elim []
        fun l => VersionStrings.ofResource l.2.data) ∧
      ((∀ i d, EntryAt tree 0 i d → selectsVersion tree d.selector = false) →
        VersionStrings.ofLeaves ls = []) ∧
      ∀ (inputs : Inputs) (config : Config), config.hashes.resources → config.parse = options →
        inputs.resources = some tree →
        let pe := (PeFingerprint.ofInputs inputs config).1
        pe.versionInfo = VersionStrings.ofLeaves ls ∧
          (valueAt? pe.resourcesByType "RT_VERSION").map UInt64.toNat =
            if (versionLeaves tree ps ls).length = 0 then none
            else some (versionLeaves tree ps ls).length := by
  have hfound := filter_version h
  refine ⟨paths tree 2 0, paths_sorted 2 0, fun p => mem_paths_iff h, ?_, ofLeaves_eq hfound, ?_, ?_⟩
  · apply (leaves_on_paths h).imp
    rintro p leaf ⟨i, j, k, d, e, f, rfl, hpath, hleaf⟩
    exact ⟨i, j, k, d, e, f, rfl, hpath, hleaf, belowVersion_cons hpath.type,
      selects_version_iff hleaf.label⟩
  · intro hnone
    rw [ofLeaves_eq hfound, versionLeaves_eq_nil h hnone]
    rfl
  · intro inputs config hon hoptions htree
    rw [← hoptions] at h
    have hcount : (ls.map ResourceLeaf.typeLabel).count "RT_VERSION" =
        (versionLeaves tree (paths tree 2 0) ls).length := by
      rw [← VersionStrings.resourceType, count_version, hfound, List.length_map]
    constructor
    · exact versionInfo_of_leaves hon htree h
    · rw [resourcesByType_of_leaves hon htree h, hcount]

end Tree

/-- A version resource with one string, whose value is one letter. -/
def letterVersion (letter : UInt8) : Bytes :=
  blockStart 70 ++ sampleTable.set! 32 letter

/-- A tree with a type that is named as the version resources are labelled, before their number. -/
def namesakeTree : ResourceSection where
  bytes := ((
      [0, 0, 0, 0x00010001, 0x800000a0, 0x80000020, 16, 0x80000038,
        0, 0, 0, 0x00010000, 1, 0x80000050, 0, 0, 0, 0x00010000, 1, 0x80000068,
        0, 0, 0, 0x00010000, 1033, 128, 0, 0, 0, 0x00010000, 1033, 144,
        0x40b6, 70, 0, 0, 0x40fc, 70, 0, 0].flatMap (littleOctets 4)) ++
      littleOctets 2 10 ++ (Utf16.encode "RT_VERSION").flatMap fun u => littleOctets 2 u.toNat).toArray
    ++ letterVersion 65 ++ letterVersion 66
  virtualAddress := 0x4000

lemma leaves_namesakeTree : ∃ ls, leaves namesakeTree {} = .ok ls ∧
    ls.map ResourceLeaf.typeLabel = ["RT_VERSION", "RT_VERSION"] ∧
    ls.map (fun leaf => VersionStrings.ofResource leaf.data) = [[⟨"", "A"⟩], [⟨"", "B"⟩]] ∧
    VersionStrings.ofLeaves ls = [⟨"", "A"⟩] := by
  have hread : (leaves namesakeTree {}).toOption.any fun ls =>
      ls.map ResourceLeaf.typeLabel == ["RT_VERSION", "RT_VERSION"] &&
        ls.map (fun leaf => VersionStrings.ofResource leaf.data) == [[⟨"", "A"⟩], [⟨"", "B"⟩]] &&
        VersionStrings.ofLeaves ls == [⟨"", "A"⟩] := by
    decide +kernel
  simp only [Option.any_eq_true, toOption_eq_some, Bool.and_eq_true, beq_iff_eq] at hread
  obtain ⟨ls, hls, ⟨hlabels, hstrings⟩, hfirst⟩ := hread
  exact ⟨ls, hls, hlabels, hstrings, hfirst⟩

theorem version_leaves_by_selector_namesake :
    ∃ ls, leaves namesakeTree {} = .ok ls ∧ VersionStrings.ofLeaves ls = [⟨"", "A"⟩] ∧
      ∃ ps : List (List Nat), ps.length = ls.length ∧
        VersionStrings.ofLeaves ls = (versionLeaves namesakeTree ps ls).head?.elim []
          fun l => VersionStrings.ofResource l.2.data := by
  obtain ⟨ls, hls, -, -, hfirst⟩ := leaves_namesakeTree
  obtain ⟨ps, -, -, hleaves, hinfo, -⟩ := version_leaves_by_selector namesakeTree {} ls hls
  exact ⟨ls, hls, hfirst, ps, hleaves.length_eq, hinfo⟩

/-- The first leaf of a tree is below a name, and yet it is taken for a version resource before the
leaf below the number 16. -/
theorem namesake_taken_for_version :
    ∃ ls, leaves namesakeTree {} = .ok ls ∧
      EntryAt namesakeTree 0 0 ⟨0x800000a0, 0x80000020⟩ ∧
      EntryAt namesakeTree 0 1 ⟨16, 0x80000038⟩ ∧
      paths namesakeTree 2 0 = [[0, 0, 0], [1, 0, 0]] ∧
      ls.map ResourceLeaf.typeLabel = ["RT_VERSION", "RT_VERSION"] ∧
      ls.map (fun leaf => VersionStrings.ofResource leaf.data) = [[⟨"", "A"⟩], [⟨"", "B"⟩]] ∧
      VersionStrings.ofLeaves ls = [⟨"", "A"⟩] ∧
      ¬List.Forall₂ (fun p leaf => ∀ i d, p.head? = some i → EntryAt namesakeTree 0 i d →
        (leaf.typeLabel = "RT_VERSION" ↔ d.selector = 16)) (paths namesakeTree 2 0) ls := by
  obtain ⟨ls, hls, hlabels, hstrings, hfirst⟩ := leaves_namesakeTree
  have hstored : (Bytes.u16? namesakeTree.bytes 12 = some 1 ∧
      Bytes.u16? namesakeTree.bytes 14 = some 1 ∧ 32 ≤ namesakeTree.bytes.size) ∧
      (Bytes.u32? namesakeTree.bytes 16 = some 0x800000a0 ∧
        Bytes.u32? namesakeTree.bytes 20 = some 0x80000020) ∧
      (Bytes.u32? namesakeTree.bytes 24 = some 16 ∧
        Bytes.u32? namesakeTree.bytes 28 = some 0x80000038) ∧
      paths namesakeTree 2 0 = [[0, 0, 0], [1, 0, 0]] := by
    decide +kernel
  obtain ⟨⟨hnames, hnumbers, hsize⟩, hfirstEntry, hsecondEntry, hpaths⟩ := hstored
  have hroot : DirectoryAt namesakeTree 0 2 := ⟨⟨1, 1, hnames, hnumbers, rfl⟩, hsize⟩
  have hnamed : EntryAt namesakeTree 0 0 ⟨0x800000a0, 0x80000020⟩ :=
    ⟨⟨2, hroot, by omega⟩, hfirstEntry.1, hfirstEntry.2⟩
  have hnumber : EntryAt namesakeTree 0 1 ⟨16, 0x80000038⟩ :=
    ⟨⟨2, hroot, by omega⟩, hsecondEntry.1, hsecondEntry.2⟩
  refine ⟨ls, hls, hnamed, hnumber, hpaths, hlabels, hstrings, hfirst, ?_⟩
  intro hall
  obtain ⟨leaf, rest, rfl⟩ : ∃ leaf rest, ls = leaf :: rest := by
    cases ls with
    | nil => cases hlabels
    | cons leaf rest => exact ⟨leaf, rest, rfl⟩
  rw [hpaths, List.forall₂_cons] at hall
  rw [List.map_cons, List.cons.injEq] at hlabels
  have hsixteen := (hall.1 0 _ rfl hnamed).mp hlabels.1
  exact absurd hsixteen (by decide)

end Hallmark.Proofs
