import Hallmark.Proofs.ResourcePaths

/-!
# The leaves of a resource tree

When a tree can be read, its leaves are those of the paths of three entries (a type, a name, a
language) in lexicographic order, and each leaf is what its entries and its data record say.
-/

namespace Hallmark.Proofs
open Pe Pe.ResourceTree

/-- The entries with the numbers `i`, `j` and `k` in the directory of types, in the directory that
the first leads to, and in the directory that the second leads to. -/
structure OnPath (tree : ResourceSection) (i j k : Nat) (d e f : DirectoryEntry) : Prop where
  type : EntryAt tree 0 i d
  name : EntryAt tree (lowBits d.target) j e
  language : EntryAt tree (lowBits e.target) k f

/-- The text that a selector of types stands for: the name of a numeric type, or as many 16-bit
units as are counted in front of them. -/
inductive Selects (tree : ResourceSection) (selector : UInt32) : String → Prop
  | number : hasHighBit selector = false → Selects tree selector (resourceTypeName selector)
  | name {units : UInt16} : hasHighBit selector →
      Bytes.u16? tree.bytes (lowBits selector) = some units →
      lowBits selector + 2 + units.toNat * 2 ≤ tree.bytes.size →
      Selects tree selector (Utf16.textBeforeNul
        (tree.bytes.extract (lowBits selector + 2) (lowBits selector + 2 + units.toNat * 2)))

/-- A leaf with the type that the entry `d` selects, and the language and the data of `f`. -/
structure LeafOf (tree : ResourceSection) (options : Options) (d f : DirectoryEntry)
    (leaf : ResourceLeaf) : Prop where
  label : Selects tree d.selector leaf.typeLabel
  language : leaf.language.toNat = f.selector.toNat % 2 ^ 16
  record : ∃ rva size, f.target.toNat + 16 ≤ tree.bytes.size ∧
    Bytes.u32? tree.bytes f.target.toNat = some rva ∧
    Bytes.u32? tree.bytes (f.target.toNat + 4) = some size ∧
    tree.virtualAddress ≤ rva ∧
    rva.toNat - tree.virtualAddress.toNat + size.toNat ≤ tree.bytes.size ∧
    leaf.data = tree.bytes.extract (rva.toNat - tree.virtualAddress.toNat)
      (rva.toNat - tree.virtualAddress.toNat + size.toNat) ∧
    leaf.data.size = size.toNat ∧ leaf.size.toNat = size.toNat
  sha256 : leaf.sha256 = Digest.sha256 leaf.data
  mime : leaf.mime = contentType options leaf.data

section Tree
variable {tree : ResourceSection} {options : Options}

/-! ## The order of the paths -/

lemma mem_paths_zero {offset : Nat} {p : List Nat} :
    p ∈ paths tree 0 offset ↔ ∃ i < entryCount tree offset, p = [i] := by
  simp only [paths, List.mem_flatMap, List.mem_range, List.mem_singleton]

lemma mem_paths_succ {below offset : Nat} {p : List Nat} :
    p ∈ paths tree (below + 1) offset ↔ ∃ i < entryCount tree offset,
      ∃ q ∈ paths tree below (childOffset tree offset i), i :: q = p := by
  simp only [paths, List.mem_flatMap, List.mem_range, List.mem_map]

lemma paths_sorted (below offset : Nat) :
    (paths tree below offset).Pairwise (List.Lex (· < ·)) := by
  induction below generalizing offset with
  | zero =>
    refine List.pairwise_flatMap.mpr ⟨fun i _ => List.pairwise_singleton _ _, ?_⟩
    refine List.pairwise_lt_range.imp fun {i i'} hlt x hx y hy => ?_
    rw [List.mem_singleton.mp hx, List.mem_singleton.mp hy]
    exact .rel hlt
  | succ below ih =>
    refine List.pairwise_flatMap.mpr ⟨fun i _ => List.pairwise_map.mpr ?_, ?_⟩
    · exact (ih _).imp fun hlt => .cons hlt
    · refine List.pairwise_lt_range.imp fun {i i'} hlt x hx y hy => ?_
      obtain ⟨p, -, rfl⟩ := List.mem_map.mp hx
      obtain ⟨q, -, rfl⟩ := List.mem_map.mp hy
      exact .rel hlt

lemma OnPath.mem_paths {i j k : Nat} {d e f : DirectoryEntry} (h : OnPath tree i j k d e f) :
    [i, j, k] ∈ paths tree 2 0 := by
  refine mem_paths_succ.mpr ⟨i, h.type.lt_entryCount, [j, k], ?_, rfl⟩
  rw [h.type.childOffset_eq]
  refine mem_paths_succ.mpr ⟨j, h.name.lt_entryCount, [k], ?_, rfl⟩
  rw [h.name.childOffset_eq]
  exact mem_paths_zero.mpr ⟨k, h.language.lt_entryCount, rfl⟩

/-! ## The leaf of a path -/

lemma selects_of_typeLabel {selector : UInt32} {text : String}
    (h : typeLabel tree selector = .ok text) : Selects tree selector text := by
  unfold typeLabel at h
  split_ifs at h with hbit
  · simp only [bind_ok] at h
    obtain ⟨units, hunits, name, hname, htext⟩ := h
    obtain ⟨hinside, rfl⟩ := slice_ok.mp hname
    cases htext
    exact .name hbit (u16_ok.mp hunits) hinside
  · cases h
    exact .number (by simpa using hbit)

lemma leafOf_of_leafAt {d f : DirectoryEntry} {name : String} {leaf : ResourceLeaf}
    (hlabel : typeLabel tree d.selector = .ok name)
    (h : leafAt tree options f.target.toNat name f.selector.toUInt16 = .ok leaf) :
    LeafOf tree options d f leaf := by
  simp only [leafAt, bind_ok] at h
  obtain ⟨_, hrecord, rva, hrva, size, hsize, place, hplace, data, hdata, hleaf⟩ := h
  obtain ⟨hbase, rfl⟩ := rvaOffset_ok.mp hplace
  obtain ⟨hinside, rfl⟩ := slice_ok.mp hdata
  cases hleaf
  refine ⟨selects_of_typeLabel hlabel, UInt32.toNat_toUInt16 _, ⟨rva, size, (slice_ok.mp hrecord).1,
    u32_ok.mp hrva, u32_ok.mp hsize, hbase, hinside, rfl, ?_, UInt32.toNat_toUInt64 _⟩, rfl, rfl⟩
  rw [Array.size_extract_of_le hinside, Nat.add_sub_cancel_left]

/-- The leaf at the end of a path is that of its first and its last entry. -/
lemma leafOn_root {p : List Nat} {leaf : ResourceLeaf} (hlength : p.length = 3)
    (h : LeafOn tree options 0 none p leaf) :
    ∃ i j k d e f, p = [i, j, k] ∧ OnPath tree i j k d e f ∧ LeafOf tree options d f leaf ∧
      hasHighBit d.target ∧ hasHighBit e.target ∧ hasHighBit f.target = false := by
  cases h with
  | leaf => cases hlength
  | @down _ i _ d name _ _ hd hname hdbit h =>
  cases h with
  | leaf => cases hlength
  | @down _ j _ e name' _ _ he hname' hebit h =>
  cases h with
  | down _ _ _ h => cases h <;> cases hlength
  | @leaf _ k _ f name'' _ hf hname'' hfbit hleaf =>
    -- The label of the type is handed down unchanged.
    cases hname'
    cases hname''
    exact ⟨i, j, k, d, e, f, rfl, ⟨hd, he, hf⟩, leafOf_of_leafAt hname hleaf, hdbit, hebit, hfbit⟩

lemma length_of_mem_paths {below offset : Nat} {p : List Nat} (h : p ∈ paths tree below offset) :
    p.length = below + 1 := by
  induction below generalizing offset p with
  | zero =>
    obtain ⟨i, -, rfl⟩ := mem_paths_zero.mp h
    rfl
  | succ below ih =>
    obtain ⟨i, -, q, hq, rfl⟩ := mem_paths_succ.mp h
    rw [List.length_cons, ih hq]

/-! ## The whole tree -/

lemma exists_of_forall₂ {α β : Type} {R : α → β → Prop} {l : List α} {u : List β}
    (h : List.Forall₂ R l u) : ∀ a ∈ l, ∃ b, R a b := by
  induction h with
  | nil => simp
  | cons hab _ ih => exact List.forall_mem_cons.mpr ⟨⟨_, hab⟩, ih⟩

lemma run_of_leaves {ls : List ResourceLeaf} (h : leaves tree options = .ok ls) :
    ∃ t, (walk tree options levelsBelowRoot 0 none).run .start = .ok () t ∧
      t.leaves.toList = ls := by
  unfold leaves at h
  cases hrun : (walk tree options levelsBelowRoot 0 none).run .start with
  | error e t => simp [hrun] at h
  | ok a t =>
    simp only [hrun, Except.ok.injEq] at h
    exact ⟨t, rfl, h⟩

/-- The leaves of a tree, each with the path that leads to it. -/
lemma leaves_on_paths {ls : List ResourceLeaf} (h : leaves tree options = .ok ls) :
    List.Forall₂ (fun p leaf => ∃ i j k d e f, p = [i, j, k] ∧ OnPath tree i j k d e f ∧
      LeafOf tree options d f leaf) (paths tree 2 0) ls := by
  obtain ⟨t, hrun, rfl⟩ := run_of_leaves h
  obtain ⟨-, ls, hls, hleaves⟩ := walk_adds hrun
  rw [hls]
  refine ((List.forall₂_and_left _ _).mpr ⟨fun p hp => length_of_mem_paths hp, hleaves⟩).imp ?_
  intro p leaf hp
  obtain ⟨i, j, k, d, e, f, hp, hpath, hleaf, -⟩ := leafOn_root hp.1 hp.2
  exact ⟨i, j, k, d, e, f, hp, hpath, hleaf⟩

lemma mem_paths_iff {ls : List ResourceLeaf} (h : leaves tree options = .ok ls) {p : List Nat} :
    p ∈ paths tree 2 0 ↔ ∃ i j k d e f, p = [i, j, k] ∧ OnPath tree i j k d e f := by
  constructor
  · intro hp
    obtain ⟨_, i, j, k, d, e, f, rfl, hpath, -⟩ := exists_of_forall₂ (leaves_on_paths h) p hp
    exact ⟨i, j, k, d, e, f, rfl, hpath⟩
  · rintro ⟨i, j, k, d, e, f, rfl, hpath⟩
    exact hpath.mem_paths

/-- A tree that can be read has one leaf for each path of three entries, in the lexicographic order
of their numbers, and all such paths lead from types over names to data. -/
theorem leaves_follow_paths (tree : ResourceSection) (options : Options) (ls : List ResourceLeaf)
    (h : leaves tree options = .ok ls) :
    ∃ ps : List (List Nat), ps.Pairwise (List.Lex (· < ·)) ∧
      (∀ p, p ∈ ps ↔ ∃ i j k d e f, p = [i, j, k] ∧ OnPath tree i j k d e f) ∧
      (∀ i j k d e f, OnPath tree i j k d e f →
        hasHighBit d.target ∧ hasHighBit e.target ∧ hasHighBit f.target = false) ∧
      List.Forall₂ (fun p leaf => ∃ i j k d e f, p = [i, j, k] ∧ OnPath tree i j k d e f ∧
        LeafOf tree options d f leaf) ps ls := by
  obtain ⟨t, hrun, rfl⟩ := run_of_leaves h
  obtain ⟨-, ls, hls, hleaves⟩ := walk_adds hrun
  have hall := ((List.forall₂_and_left _ _).mpr
    ⟨fun p hp => length_of_mem_paths hp, hleaves⟩).imp fun p leaf hp => leafOn_root hp.1 hp.2
  have hmem := exists_of_forall₂ hall
  refine ⟨paths tree 2 0, paths_sorted 2 0, fun p => ⟨fun hp => ?_, ?_⟩, ?_, ?_⟩
  · obtain ⟨_, i, j, k, d, e, f, rfl, hpath, -⟩ := hmem p hp
    exact ⟨i, j, k, d, e, f, rfl, hpath⟩
  · rintro ⟨i, j, k, d, e, f, rfl, hpath⟩
    exact hpath.mem_paths
  · intro i j k d e f hpath
    obtain ⟨_, i', j', k', d', e', f', hp, hpath', -, hbits⟩ := hmem _ hpath.mem_paths
    cases hp
    cases hpath.type.unique hpath'.type
    cases hpath.name.unique hpath'.name
    cases hpath.language.unique hpath'.language
    exact hbits
  · rw [hls]
    exact hall.imp fun p leaf ⟨i, j, k, d, e, f, hp, hpath, hleaf, _⟩ =>
      ⟨i, j, k, d, e, f, hp, hpath, hleaf⟩

end Tree

/-- A tree with two types, one of them named, that lead to the same directory of names. -/
def sharedTree : ResourceSection where
  bytes := ((
      [0, 0, 0, 0x00010001, 0x80000078, 0x80000020, 16, 0x80000020,
        0, 0, 0, 0x00010000, 1, 0x80000038,
        0, 0, 0, 0x00020000, 1033, 88, 0x0001040c, 104,
        0x407e, 3, 0, 0, 0x4081, 1, 0, 0].flatMap (littleOctets 4)) ++
      [2, 0, 65, 0, 66, 0, 97, 98, 99, 100]).toArray
  virtualAddress := 0x4000

theorem leaves_follow_paths_shared :
    ∃ ls, leaves sharedTree {} = .ok ls ∧
      ls.map (fun leaf => (leaf.typeLabel, leaf.language, leaf.data)) =
        [("AB", 1033, #[97, 98, 99]), ("AB", 1036, #[100]),
          ("RT_VERSION", 1033, #[97, 98, 99]), ("RT_VERSION", 1036, #[100])] ∧
      ∃ ps : List (List Nat), ps.Pairwise (List.Lex (· < ·)) ∧ ps.length = ls.length ∧
        ∀ p, p ∈ ps ↔ ∃ i j k d e f, p = [i, j, k] ∧ OnPath sharedTree i j k d e f := by
  have hread : (leaves sharedTree {}).toOption.map
      (·.map fun leaf => (leaf.typeLabel, leaf.language, leaf.data)) =
        some [("AB", 1033, #[97, 98, 99]), ("AB", 1036, #[100]),
          ("RT_VERSION", 1033, #[97, 98, 99]), ("RT_VERSION", 1036, #[100])] := by
    decide +kernel
  cases h : leaves sharedTree {} with
  | error e => simp [h, Except.toOption] at hread
  | ok ls =>
    obtain ⟨ps, hsorted, hmem, -, hleaves⟩ := leaves_follow_paths sharedTree {} ls h
    refine ⟨ls, rfl, ?_, ps, hsorted, hleaves.length_eq, hmem⟩
    simpa [h, Except.toOption] using hread

end Hallmark.Proofs
