import Hallmark.Proofs.FlatTrees

/-!
# Resource sections that are filled in

A writer that gives every directory and every leaf of a flat tree its place first, and then fills
in a buffer of zeros: the directories, the records of the leaves behind them, and the bytes of the
leaves behind those, each at a multiple of four.
-/

namespace Hallmark.Proofs
open Pe Pe.ResourceTree

/-! ## The writer -/

/-- Where pieces of the given lengths start from `place` on, and where the last of them ends. -/
def placesFrom (align : Nat → Nat) : (place : Nat) → (lengths : List Nat) → List Nat × Nat
  | place, [] => ([], place)
  | place, n :: ns =>
    let (starts, stop) := placesFrom align (align place + n) ns
    (align place :: starts, stop)

section Fill
variable (word : Target → UInt32)

def fillEntries : (slot : Nat) → (buffer : List UInt8) → List (UInt32 × Target) → List UInt8
  | _, buffer, [] => buffer
  | slot, buffer, e :: es =>
    let selected := overwrite buffer slot (littleOctets 4 e.1.toNat)
    fillEntries (slot + 8) (overwrite selected (slot + 4) (littleOctets 4 (word e.2).toNat)) es

/-- Fills in the count and the entries of the directory at a place. -/
def fillDirectory (buffer : List UInt8) (d : Nat × List (UInt32 × Target)) : List UInt8 :=
  let counted := overwrite buffer (d.1 + 14) (littleOctets 2 d.2.length)
  fillEntries word (d.1 + 16) counted d.2

end Fill

/-- Fills in the record of a leaf at `slot`, and its bytes at their place. -/
def fillLeaf (address : UInt32) (slot : Nat) (buffer : List UInt8) (l : Nat × List UInt8) :
    List UInt8 :=
  let addressed := overwrite buffer slot (littleOctets 4 (address + UInt32.ofNat l.1).toNat)
  let recorded := overwrite addressed (slot + 4) (littleOctets 4 l.2.length)
  overwrite recorded l.1 l.2

def fillLeaves (address : UInt32) :
    (slot : Nat) → (buffer : List UInt8) → List (Nat × List UInt8) → List UInt8
  | _, buffer, [] => buffer
  | slot, buffer, l :: ls => fillLeaves address (slot + 16) (fillLeaf address slot buffer l) ls

namespace FlatTree
variable (F : FlatTree)

def directoryPlaces : List Nat × Nat :=
  placesFrom id 0 (F.directories.map fun entries => 16 + 8 * entries.length)

/-- The places of the leaves, and where the last of them ends. -/
def leafPlaces : List Nat × Nat :=
  placesFrom align4 (F.directoryPlaces.2 + 16 * F.leaves.length) (F.leaves.map List.length)

/-- The word that leads to a directory or to the record of a leaf. -/
def word : Target → UInt32
  | .directory i => flagged (F.directoryPlaces.1.getD i 0)
  | .leaf j => UInt32.ofNat (F.directoryPlaces.2 + 16 * j)

/-- The section at `address` that holds a flat tree. -/
def sectionOctets (address : UInt32) : List UInt8 :=
  let directories := (F.directoryPlaces.1.zip F.directories).foldl (fillDirectory F.word)
    (zeros F.leafPlaces.2)
  fillLeaves address F.directoryPlaces.2 directories (F.leafPlaces.1.zip F.leaves)

end FlatTree

/-! ## The layout -/

/-- Pieces that stand behind one another, each at the next place that `align` allows. -/
def packed (align : Nat → Nat) : (place : Nat) → (pieces : List (List UInt8)) → List UInt8
  | _, [] => []
  | place, p :: ps =>
    zeros (align place - place) ++ (p ++ packed align (align place + p.length) ps)

def directoryPiece (word : Target → UInt32) (entries : List (UInt32 × Target)) : List UInt8 :=
  directoryHeader entries.length ++ entries.flatMap fun e => entryOctets ⟨e.1, word e.2⟩

def leafRecord (address : UInt32) (l : Nat × List UInt8) : List UInt8 :=
  recordOctets (address + UInt32.ofNat l.1).toNat l.2.length

lemma length_leafRecord (address : UInt32) (l : Nat × List UInt8) :
    (leafRecord address l).length = 16 := length_recordOctets _ _

section Packing
variable {align : Nat → Nat}

lemma placesFrom_stop (halign : ∀ n, n ≤ align n) (place : Nat) (pieces : List (List UInt8)) :
    (placesFrom align place (pieces.map List.length)).2 =
      place + (packed align place pieces).length := by
  induction pieces generalizing place with
  | nil => rfl
  | cons p ps ih =>
    have hplace := halign place
    rw [List.map_cons, placesFrom, ih, packed, List.length_append, length_zeros,
      List.length_append]
    omega

lemma length_placesFrom (place : Nat) (lengths : List Nat) :
    (placesFrom align place lengths).1.length = lengths.length := by
  induction lengths generalizing place with
  | nil => rfl
  | cons n ns ih => rw [placesFrom, List.length_cons, ih, List.length_cons]

lemma packed_placed {data : Bytes} (halign : ∀ n, n ≤ align n) {place : Nat}
    {pieces : List (List UInt8)} (h : Placed data place (packed align place pieces)) {i : Nat}
    {p : List UInt8} (hp : pieces[i]? = some p) :
    ∃ q, (placesFrom align place (pieces.map List.length)).1[i]? = some q ∧ Placed data q p := by
  induction pieces generalizing place i with
  | nil => simp at hp
  | cons d ps ih =>
    have hbehind := h.right
    rw [length_zeros, Nat.add_sub_cancel' (halign place)] at hbehind
    cases i with
    | zero =>
      obtain rfl : d = p := by simpa using hp
      exact ⟨align place, rfl, hbehind.left⟩
    | succ i => exact ih hbehind.right hp

end Packing

lemma le_id (n : Nat) : n ≤ id n := Nat.le_refl n

/-! ## What the writer writes -/

section Filling
variable (word : Target → UInt32)

lemma length_directoryPiece (entries : List (UInt32 × Target)) :
    (directoryPiece word entries).length = 16 + entries.length * 8 := by
  rw [directoryPiece, List.length_append, length_directoryHeader,
    length_flatMap_of_width fun _ => length_entryOctets _]

lemma fillEntries_eq (es : List (UInt32 × Target)) (a b : List UInt8) :
    fillEntries word a.length (a ++ (zeros (es.length * 8) ++ b)) es =
      a ++ ((es.flatMap fun e => entryOctets ⟨e.1, word e.2⟩) ++ b) := by
  induction es generalizing a with
  | nil => simp [fillEntries, zeros]
  | cons e es ih =>
    have hfirst := overwrite_entry ⟨e.1, word e.2⟩ a (zeros (es.length * 8) ++ b)
    have hslot : a.length + 8 = (a ++ entryOctets ⟨e.1, word e.2⟩).length := by
      rw [List.length_append, length_entryOctets]
    rw [fillEntries, List.length_cons, zeros_succ_mul, List.append_assoc]
    simp only [hfirst]
    rw [← List.append_assoc a, hslot, ih, List.flatMap_cons, List.append_assoc, List.append_assoc]

lemma fillDirectory_eq (entries : List (UInt32 × Target)) (a b : List UInt8) :
    fillDirectory word (a ++ (zeros (directoryPiece word entries).length ++ b))
        (a.length, entries) =
      a ++ (directoryPiece word entries ++ b) := by
  have hroom : a ++ (zeros (directoryPiece word entries).length ++ b) =
      (a ++ zeros 14) ++ (zeros 2 ++ (zeros (entries.length * 8) ++ b)) := by
    rw [length_directoryPiece, zeros_add 16, show zeros 16 = zeros 14 ++ zeros 2 from rfl]
    simp only [List.append_assoc]
  have hcount : a.length + 14 = (a ++ zeros 14).length := by
    rw [List.length_append, length_zeros]
  have hslot : a.length + 16 = (a ++ zeros 14 ++ littleOctets 2 entries.length).length := by
    rw [List.length_append, List.length_append, length_zeros, length_littleOctets]
  have htwo : (zeros 2).length = (littleOctets 2 entries.length).length := rfl
  have hheader : directoryHeader entries.length = zeros 14 ++ littleOctets 2 entries.length := by
    rw [directoryHeader, ← List.append_assoc]
    rfl
  rw [fillDirectory]
  simp only [hroom, hcount, overwrite_between htwo]
  rw [← List.append_assoc (a ++ zeros 14), hslot, fillEntries_eq, directoryPiece, hheader]
  simp only [List.append_assoc]

lemma fillDirectories_eq (ds : List (List (UInt32 × Target))) (a b : List UInt8) :
    ((placesFrom id a.length ((ds.map (directoryPiece word)).map List.length)).1.zip ds).foldl
        (fillDirectory word)
        (a ++ (zeros (packed id a.length (ds.map (directoryPiece word))).length ++ b)) =
      a ++ (packed id a.length (ds.map (directoryPiece word)) ++ b) := by
  induction ds generalizing a with
  | nil => rfl
  | cons d ds ih =>
    have hnext : a.length + (directoryPiece word d).length = (a ++ directoryPiece word d).length :=
      List.length_append.symm
    have hpacked : packed id a.length ((d :: ds).map (directoryPiece word)) =
        directoryPiece word d ++
          packed id (a ++ directoryPiece word d).length (ds.map (directoryPiece word)) := by
      rw [List.map_cons, packed, id, Nat.sub_self, hnext]
      rfl
    rw [hpacked, List.length_append, zeros_add, List.append_assoc]
    simp only [List.map_cons, placesFrom, List.zip_cons_cons, List.foldl_cons]
    rw [id, fillDirectory_eq, hnext, ← List.append_assoc, ih, List.append_assoc, List.append_assoc]

lemma fillLeaf_eq (address : UInt32) (bytes a b c : List UInt8) :
    fillLeaf address a.length (a ++ (zeros 16 ++ (b ++ (zeros bytes.length ++ c))))
        (a.length + 16 + b.length, bytes) =
      a ++ (leafRecord address (a.length + 16 + b.length, bytes) ++ (b ++ (bytes ++ c))) := by
  generalize hplace : a.length + 16 + b.length = place
  have hend : place = (a ++ (leafRecord address (place, bytes) ++ b)).length := by
    rw [List.length_append, List.length_append, length_leafRecord, ← hplace, Nat.add_assoc]
  have hrecord := overwrite_words (address + UInt32.ofNat place).toNat bytes.length a
    (zeros 8 ++ (b ++ (zeros bytes.length ++ c)))
  rw [fillLeaf, show zeros 16 = zeros 8 ++ zeros 8 from rfl, List.append_assoc (zeros 8)]
  simp only [hrecord]
  have hshape : a ++ (littleOctets 4 (address + UInt32.ofNat place).toNat ++
      (littleOctets 4 bytes.length ++ (zeros 8 ++ (b ++ (zeros bytes.length ++ c))))) =
      (a ++ (leafRecord address (place, bytes) ++ b)) ++ (zeros bytes.length ++ c) := by
    simp only [leafRecord, recordOctets, List.append_assoc]
  have hbytes := overwrite_between (a := a ++ (leafRecord address (place, bytes) ++ b)) (b := c)
    (length_zeros bytes.length)
  rw [← hend] at hbytes
  rw [hshape, hbytes]
  simp only [List.append_assoc]

/-- The records fill the room behind `a`, and the bytes of the leaves that behind `b`, which ends at
`place`. -/
lemma fillLeaves_eq (address : UInt32) (ls : List (List UInt8)) (a b : List UInt8) (place : Nat)
    (hplace : place = a.length + ls.length * 16 + b.length) :
    fillLeaves address a.length
        (a ++ (zeros (ls.length * 16) ++ (b ++ zeros (packed align4 place ls).length)))
        ((placesFrom align4 place (ls.map List.length)).1.zip ls) =
      a ++ (((placesFrom align4 place (ls.map List.length)).1.zip ls).flatMap (leafRecord address) ++
        (b ++ packed align4 place ls)) := by
  induction ls generalizing a b place with
  | nil => simp [fillLeaves, placesFrom, packed, zeros]
  | cons l ls ih =>
    -- The record of `l` takes the first slot of the room, and its bytes come to stand behind `b`.
    have hstart : align4 place =
        a.length + 16 + (zeros (ls.length * 16) ++ (b ++ zeros (align4 place - place))).length := by
      simp only [List.length_append, length_zeros, List.length_cons] at hplace ⊢
      have hle := le_align4 place
      omega
    have hfirst := fillLeaf_eq address l a
      (zeros (ls.length * 16) ++ (b ++ zeros (align4 place - place)))
      (zeros (packed align4 (align4 place + l.length) ls).length)
    rw [← hstart] at hfirst
    have hnext : a.length + 16 = (a ++ leafRecord address (align4 place, l)).length := by
      rw [List.length_append, length_leafRecord]
    have hbehind := ih (a ++ leafRecord address (align4 place, l))
      (b ++ (zeros (align4 place - place) ++ l)) (align4 place + l.length) (by
        simp only [List.length_append, length_zeros, ← hnext] at hstart ⊢
        omega)
    rw [packed, List.length_append, List.length_append, length_zeros, zeros_add, zeros_add,
      List.length_cons, zeros_succ_mul]
    simp only [List.map_cons, placesFrom, List.zip_cons_cons, List.flatMap_cons, fillLeaves,
      List.append_assoc] at hfirst hbehind ⊢
    rw [hfirst, hnext, hbehind]

end Filling

namespace FlatTree
variable (F : FlatTree)

lemma directoryPlaces_eq : F.directoryPlaces =
    placesFrom id 0 ((F.directories.map (directoryPiece F.word)).map List.length) := by
  rw [directoryPlaces, List.map_map]
  congr 1
  refine List.map_congr_left fun entries _ => ?_
  rw [Function.comp, length_directoryPiece, Nat.mul_comm]

lemma directoryPlaces_stop :
    F.directoryPlaces.2 = (packed id 0 (F.directories.map (directoryPiece F.word))).length := by
  rw [directoryPlaces_eq, placesFrom_stop le_id, Nat.zero_add]

/-- The section is made of the directories, the records of the leaves, and their bytes. -/
theorem sectionOctets_eq (address : UInt32) :
    F.sectionOctets address = packed id 0 (F.directories.map (directoryPiece F.word)) ++
      ((F.leafPlaces.1.zip F.leaves).flatMap (leafRecord address) ++
        packed align4 (F.directoryPlaces.2 + 16 * F.leaves.length) F.leaves) := by
  have hrecords := F.directoryPlaces_stop
  have hdirectories := fillDirectories_eq F.word F.directories [] (zeros (F.leaves.length * 16) ++
    zeros (packed align4 (F.directoryPlaces.2 + 16 * F.leaves.length) F.leaves).length)
  rw [List.nil_append, List.length_nil, ← directoryPlaces_eq, List.nil_append] at hdirectories
  have hleaves := fillLeaves_eq address F.leaves
    (packed id 0 (F.directories.map (directoryPiece F.word))) []
    (F.directoryPlaces.2 + 16 * F.leaves.length) (by rw [hrecords, Nat.mul_comm]; rfl)
  rw [← hrecords, List.nil_append, List.nil_append] at hleaves
  have hroom : zeros F.leafPlaces.2 =
      zeros (packed id 0 (F.directories.map (directoryPiece F.word))).length ++
        (zeros (F.leaves.length * 16) ++ zeros (packed align4
          (F.directoryPlaces.2 + 16 * F.leaves.length) F.leaves).length) := by
    rw [leafPlaces, placesFrom_stop le_align4, zeros_add, hrecords, zeros_add, Nat.mul_comm 16,
      List.append_assoc]
  rw [sectionOctets, hroom]
  simp only [hdirectories]
  exact hleaves

/-! ## What is stored -/

section Stored
variable {F : FlatTree} {tree : ResourceSection}

lemma directory_placed (htree : tree.bytes.toList = F.sectionOctets tree.virtualAddress) {i : Nat}
    {entries : List (UInt32 × Target)} (h : F.directories[i]? = some entries) :
    ∃ q, F.directoryPlaces.1[i]? = some q ∧
      Placed tree.bytes q (directoryPiece F.word entries) := by
  have hsection := Placed.self tree.bytes
  rw [htree, sectionOctets_eq] at hsection
  rw [directoryPlaces_eq]
  apply packed_placed le_id hsection.left
  rw [List.getElem?_map, h]
  rfl

lemma leaf_placed (htree : tree.bytes.toList = F.sectionOctets tree.virtualAddress) {j : Nat}
    {bytes : List UInt8} (h : F.leaves[j]? = some bytes) :
    ∃ q, Placed tree.bytes (F.directoryPlaces.2 + 16 * j)
        (leafRecord tree.virtualAddress (q, bytes)) ∧
      Placed tree.bytes q bytes := by
  have hsection := Placed.self tree.bytes
  rw [htree, sectionOctets_eq] at hsection
  have hrecords := hsection.right.left
  have hbytes := hsection.right.right
  have hlength : ((F.leafPlaces.1.zip F.leaves).flatMap (leafRecord tree.virtualAddress)).length =
      16 * F.leaves.length := by
    have hcount : F.leafPlaces.1.length = F.leaves.length := by
      rw [leafPlaces, length_placesFrom, List.length_map]
    rw [length_flatMap_of_width (length_leafRecord _), List.length_zip, hcount, Nat.min_self,
      Nat.mul_comm]
  rw [Nat.zero_add, ← directoryPlaces_stop] at hrecords hbytes
  rw [hlength] at hbytes
  obtain ⟨q, hq, hplaced⟩ := packed_placed le_align4 hbytes h
  have hitem : (F.leafPlaces.1.zip F.leaves)[j]? = some (q, bytes) := by
    rw [List.getElem?_zip_eq_some]
    exact ⟨hq, h⟩
  refine ⟨q, ?_, hplaced⟩
  rw [Nat.mul_comm]
  exact hrecords.flatMap (length_leafRecord _) hitem

lemma first_place {targets : List (UInt32 × Target)} (h : F.directories[0]? = some targets) :
    F.directoryPlaces.1[0]? = some 0 := by
  rw [directoryPlaces]
  obtain ⟨ds, hds⟩ : ∃ ds, F.directories = targets :: ds := by
    cases hds : F.directories with
    | nil => simp [hds] at h
    | cons d ds =>
      obtain rfl : d = targets := by simpa [hds] using h
      exact ⟨ds, rfl⟩
  rw [hds]
  rfl

/-- A number that leads to a directory leads to where it stands, with the words of its entries. -/
lemma entries_placed (htree : tree.bytes.toList = F.sectionOctets tree.virtualAddress) {α : Type}
    {child : α → Target → Prop} {entries : List (UInt32 × α)} (hcount : entries.length < 2 ^ 16)
    {i q : Nat} (hq : F.directoryPlaces.1[i]? = some q)
    (h : F.LeadsToDirectory child entries (.directory i)) :
    DirectoryAt tree q entries.length ∧ ∀ k e, entries[k]? = some e →
      ∃ target, child e.2 target ∧ WordsAt tree (q + 16 + k * 8) ⟨e.1, F.word target⟩ := by
  obtain ⟨targets, htargets, hentries⟩ := h
  have hlength := hentries.length_eq
  obtain ⟨q', hq', hplaced⟩ := directory_placed htree htargets
  obtain rfl : q' = q := Option.some.inj (hq'.symm.trans hq)
  rw [directoryPiece, ← hlength] at hplaced
  refine ⟨directoryAt_of_placed hcount ?_ hplaced, fun k e he => ?_⟩
  · rw [length_flatMap_of_width fun _ => length_entryOctets _, hlength]
  · obtain ⟨hk, rfl⟩ := List.getElem?_eq_some_iff.mp he
    have hk' : k < targets.length := hlength ▸ hk
    obtain ⟨hid, hchild⟩ := hentries.get hk hk'
    have hwords := hplaced.right.flatMap (fun _ => length_entryOctets _)
      (List.getElem?_eq_getElem hk')
    rw [length_directoryHeader] at hwords
    simp only [List.get_eq_getElem] at hid hchild
    rw [← hid] at hwords
    exact ⟨_, hchild, hwords⟩

/-- What a number of the flat tree leads to is stored in its section. -/
theorem stored_of_leadsTo (htree : tree.bytes.toList = F.sectionOctets tree.virtualAddress)
    (hsize : tree.bytes.size < 2 ^ 31)
    (haddress : tree.virtualAddress.toNat + tree.bytes.size < 2 ^ 32) {below : Nat}
    {entries : Tree UInt32 below} (hnarrow : Tree.Narrow below entries) {i q : Nat}
    (hq : F.directoryPlaces.1[i]? = some q) (h : F.LeadsTo below entries (.directory i)) :
    Stored tree (fun number word => word = number) below q entries := by
  induction below generalizing i q with
  | zero =>
    obtain ⟨hdirectory, hentries⟩ := entries_placed htree hnarrow hq h
    refine ⟨hdirectory, fun k e he => ?_⟩
    obtain ⟨target, hchild, hwords⟩ := hentries k e he
    cases target with
    | directory _ => exact hchild.elim
    | leaf j =>
      obtain ⟨_, hrecord, hbytes⟩ := leaf_placed htree hchild
      obtain ⟨hdata, hleaf⟩ := leafStored_of_placed hsize haddress hrecord hbytes
      exact ⟨_, hwords, hdata, hleaf⟩
  | succ below ih =>
    obtain ⟨hdirectory, hentries⟩ := entries_placed htree hnarrow.1 hq h
    refine ⟨hdirectory, fun k e he => ?_⟩
    obtain ⟨target, hchild, hwords⟩ := hentries k e he
    obtain ⟨j, targets, rfl, htargets⟩ := directory_of_leadsTo hchild
    obtain ⟨p, hp, hplaced⟩ := directory_placed htree htargets
    have hend := hplaced.le_size
    rw [length_directoryPiece] at hend
    have hword : F.word (.directory j) = flagged p := by
      rw [word, List.getD_eq_getElem?_getD, hp]
      rfl
    rw [hword] at hwords
    refine ⟨_, _, rfl, hwords, hasHighBit_flagged (by omega), ?_⟩
    rw [lowBits_flagged (by omega)]
    exact ih (hnarrow.2 e (List.mem_of_getElem? he)) hp hchild

end Stored
end FlatTree
end Hallmark.Proofs
