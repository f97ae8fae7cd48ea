import Hallmark.Pe.VersionStrings
import Hallmark.Proofs.ByteReads
import Mathlib.Tactic.SplitIfs

/-!
# The extent of version strings

The entries of a version resource come from the block of string tables alone, as long as its stated
length goes beyond its key. A block that ends with its key bounds nothing: whatever follows it in
the resource is read as its string tables.
-/

namespace Hallmark.Proofs
open Pe Pe.VersionStrings

lemma marker_eq : marker = #[83, 0, 116, 0, 114, 0, 105, 0, 110, 0, 103, 0, 70, 0, 105, 0, 108, 0,
    101, 0, 73, 0, 110, 0, 102, 0, 111, 0] := by decide +kernel

lemma size_marker : marker.size = 28 := by rw [marker_eq]; rfl

section Block
variable {data : Bytes} {b : Nat} {length : UInt16}

/-- The tables start behind the key of their block, and end where its length says if that goes
beyond the key. -/
lemma ofResource_of_firstAt (hmarker : FirstAt data marker (b + 6))
    (hlength : Bytes.u16? data b = some length) (hkey : b + 36 ≤ data.size) :
    ofResource data =
      ofTables (data.extract (b + 36)
        (if 36 < length.toNat then min (b + length.toNat) data.size else data.size)) := by
  have hfind := find?_of_firstAt hmarker (Nat.zero_le (b + 6))
  have hblock : b + 6 - blockHeader = b := Nat.add_sub_cancel b 6
  have hend : b + 6 + 28 + 2 - b = 36 := by omega
  have hheader : blockHeader ≤ b + 6 := Nat.le_add_left 6 b
  have hordered : b + 36 ≤
      if 36 < length.toNat then min (b + length.toNat) data.size else data.size := by
    split_ifs <;> omega
  have halign : align4 36 = 36 := rfl
  simp only [ofResource, hfind, size_marker, hblock, hlength, hend, hheader, halign,
    Option.getD_some, if_true, hordered]

lemma ofResource_of_long (hmarker : FirstAt data marker (b + 6))
    (hlength : Bytes.u16? data b = some length) (hlong : 36 < length.toNat)
    (hfit : b + length.toNat ≤ data.size) :
    ofResource data = ofTables (data.extract (b + 36) (b + length.toNat)) := by
  rw [ofResource_of_firstAt hmarker hlength (by omega), if_pos hlong, Nat.min_eq_left hfit]

lemma ofResource_of_key (hmarker : FirstAt data marker (b + 6))
    (hlength : Bytes.u16? data b = some length) (hkey : length.toNat = 36)
    (hfit : b + 36 ≤ data.size) :
    ofResource data = ofTables (data.extract (b + 36) data.size) := by
  rw [ofResource_of_firstAt hmarker hlength hfit, if_neg (by omega)]

/-- Nothing but the bytes up to the end of its block is needed to find a block of tables. -/
lemma block_of_agree {data' : Bytes} {n : Nat} (hagree : AgreeTo n data data')
    (hn : b + 36 ≤ n) (hmarker : FirstAt data marker (b + 6))
    (hlength : Bytes.u16? data b = some length) :
    FirstAt data' marker (b + 6) ∧ Bytes.u16? data' b = some length := by
  constructor
  · refine hmarker.agree hagree ?_
    rw [size_marker]
    omega
  · rw [← hagree.u16? (by omega), hlength]

lemma ofResource_key_append (hmarker : FirstAt data marker (b + 6))
    (hlength : Bytes.u16? data b = some length) (hkey : length.toNat = 36)
    (hfit : b + 36 ≤ data.size) (tail : Bytes) :
    ofResource (data.extract 0 (b + 36) ++ tail) = ofTables tail := by
  have hagree := AgreeTo.append_tail hfit tail
  obtain ⟨hmarker', hlength'⟩ := block_of_agree hagree (Nat.le_refl _) hmarker hlength
  rw [ofResource_of_key hmarker' hlength' hkey hagree.right, extract_tail hfit]

end Block

/-! ## The extent -/

/-- A string table with one entry, whose name is empty. -/
def sampleTable : Bytes :=
  #[34, 0, 0, 0, 1, 0] ++ Array.replicate 18 0 ++ #[10, 0, 1, 0, 1, 0, 0, 0, 65, 0]

/-- The header and the key of a block of string tables with the given length. -/
def blockStart (length : UInt8) : Bytes := #[length, 0, 0, 0, 1, 0] ++ marker ++ #[0, 0]

lemma ofTables_empty : ofTables #[] = [] := by
  rw [ofTables, blocks]
  rfl

lemma ofTables_sampleTable : ofTables sampleTable = [⟨"", "A"⟩] := by decide +kernel

/-- The entries depend on the bytes up to the end of the block of string tables alone, exactly when
the stated length of the block goes beyond its key; when the block ends with its key, all that
follows it is read as string tables. -/
theorem version_entries_extent (data : Bytes) (b : Nat) (length : UInt16)
    (hmarker : FirstAt data marker (b + 6)) (hlength : Bytes.u16? data b = some length)
    (hkey : 36 ≤ length.toNat) (hfit : b + length.toNat ≤ data.size) :
    ((∀ data', data'.extract 0 (b + length.toNat) = data.extract 0 (b + length.toNat) →
        ofResource data' = ofResource data) ↔ 36 < length.toNat) ∧
      (36 < length.toNat →
        ofResource data = ofTables (data.extract (b + 36) (b + length.toNat))) ∧
      (length.toNat = 36 → ofResource data = ofTables (data.extract (b + 36) data.size)) := by
  refine ⟨⟨fun hsame => ?_, fun hlong data' hsame => ?_⟩, fun hlong => ?_, fun hend => ?_⟩
  · by_contra hshort
    have hend : length.toNat = 36 := by omega
    rw [hend] at hsame hfit
    -- Two continuations of the same block with different entries.
    have hnone := hsame _ (AgreeTo.append_tail hfit #[]).start.symm
    have hsome := hsame _ (AgreeTo.append_tail hfit sampleTable).start.symm
    rw [ofResource_key_append hmarker hlength hend hfit, ofTables_empty] at hnone
    rw [ofResource_key_append hmarker hlength hend hfit, ofTables_sampleTable, ← hnone] at hsome
    cases hsome
  · have hagree := AgreeTo.of_extract hfit hsame
    obtain ⟨hmarker', hlength'⟩ := block_of_agree hagree (by omega) hmarker hlength
    rw [ofResource_of_long hmarker' hlength' hlong hagree.right,
      ofResource_of_long hmarker hlength hlong hfit, hagree.extract (b + 36) (Nat.le_refl _)]
  · exact ofResource_of_long hmarker hlength hlong hfit
  · exact ofResource_of_key hmarker hlength hend (by omega)

/-- A block with a string table gives its entry whatever follows it. -/
theorem version_entries_extent_sample :
    let data := blockStart 70 ++ sampleTable
    FirstAt data marker 6 ∧ Bytes.u16? data 0 = some 70 ∧ data.size = 70 ∧
      ofResource data = ofTables sampleTable ∧
      ∀ data', data'.extract 0 70 = data.extract 0 70 → ofResource data' = ofResource data := by
  intro data
  have hmarker : FirstAt data marker (0 + 6) := by
    unfold data blockStart
    rw [marker_eq]
    exact ⟨by decide +kernel, by decide +kernel⟩
  have hlength : Bytes.u16? data 0 = some 70 := by decide +kernel
  have hsize : data.size = 70 := by decide +kernel
  have hfit : 0 + (70 : UInt16).toNat ≤ data.size := Nat.le_of_eq hsize.symm
  obtain ⟨hextent, hentries, -⟩ := version_entries_extent data 0 70 hmarker hlength (by decide) hfit
  have htable : data.extract (0 + 36) (0 + (70 : UInt16).toNat) = sampleTable := by decide +kernel
  refine ⟨hmarker, hlength, hsize, ?_, hextent.mpr (by decide)⟩
  rw [hentries (by decide), htable]

/-- The tables of a block that ends with its key are read from what follows it. -/
theorem block_without_tables_reads_on :
    let data := blockStart 36 ++ sampleTable
    FirstAt data marker 6 ∧ Bytes.u16? data 0 = some 36 ∧ 36 ≤ data.size ∧
      (blockStart 36).extract 0 36 = data.extract 0 36 ∧
      ofResource (blockStart 36) = [] ∧ ofResource data = [⟨"", "A"⟩] := by
  unfold blockStart
  rw [marker_eq]
  refine ⟨⟨?_, ?_⟩, ?_, ?_, ?_, ?_, ?_⟩ <;> decide +kernel

end Hallmark.Proofs
