import Hallmark.Proofs.StatefulRuns
import Hallmark.Proofs.VersionSpans

/-!
# Version strings by exact slices

A reader of version strings that gives up at the first slice that is not in its octets never gives
up: all that it cuts out of a resource, at all three levels of blocks, is there.
-/

namespace Hallmark.Proofs
open Pe Pe.VersionStrings

/-- The octets of a span; the error is a span that goes back or goes beyond the data. -/
def exactSlice (data : Bytes) (s : Span) : Except Span Bytes :=
  if s.start ≤ s.stop ∧ s.stop ≤ data.size then .ok (s.cut data) else .error s

/-- The blocks that a walk finds, each by an exact slice. -/
def exactBlocks (data : Bytes) (offset : Nat) : Except Span (List Bytes) :=
  (blockSpans data offset).mapM (exactSlice data)

/-- The name and the value of a string block, its name by an exact slice of what stands behind the
header. -/
def exactString? (block : Bytes) : Except Span (Option VersionEntry) :=
  match Bytes.u16? block 4, Bytes.from? block blockHeader with
  | some kind, some key =>
    if kind ≠ textKind then .ok none
    else do
      let length := 2 * (Utf16.unitsBeforeNul key).length
      let name ← exactSlice key ⟨0, length⟩
      return (Bytes.from? block (align4 (blockHeader + length + 2))).bind fun value =>
        let text := Utf16.textBeforeNul value
        if text = "" then none else some ⟨Utf16.textBeforeNul name, text⟩
  | _, _ => .ok none

def exactStrings (data : Bytes) : Except Span (List VersionEntry) := do
  let strings ← exactBlocks data 0
  return (← strings.mapM exactString?).filterMap id

def exactTables (data : Bytes) : Except Span (List VersionEntry) := do
  let tables ← exactBlocks data 0
  let entries ← tables.mapM fun table => exactStrings (table.extract tableHeader table.size)
  return entries.flatten

/-- The entries of a version resource, all slices exact. -/
def exactResource (data : Bytes) : Except Span (List VersionEntry) :=
  match tablesSpan? data with
  | none => .ok []
  | some s => exactSlice data s >>= exactTables

section Exact
variable {data : Bytes} {s : Span}

lemma exactSlice_ok (hordered : s.start ≤ s.stop) (hstop : s.stop ≤ data.size) :
    exactSlice data s = .ok (s.cut data) := if_pos ⟨hordered, hstop⟩

lemma exactBlocks_ok (data : Bytes) (offset : Nat) :
    exactBlocks data offset = .ok (blocks data offset) := by
  rw [blocks_eq_cut]
  refine mapM_ok fun s hs => ?_
  obtain ⟨-, hless, hstop⟩ := blockSpans_inside hs
  exact exactSlice_ok hless.le hstop

/-- The name is read from its own octets as it is read from all that stands behind the header. -/
lemma textBeforeNul_cut (a : Bytes) :
    Utf16.textBeforeNul (Span.cut ⟨0, 2 * (Utf16.unitsBeforeNul a).length⟩ a) =
      Utf16.textBeforeNul a := by
  have hunits := units_beforeNul a
  have hwhole : Utf16.unitsBeforeNul (a.extract 0 (2 * (Utf16.unitsBeforeNul a).length)) =
      Utf16.unitsBeforeNul a := by
    rw [Utf16.unitsBeforeNul, hunits, Utf16.unitsBeforeNul, List.takeWhile_takeWhile]
    simp
  rw [Utf16.textBeforeNul, Span.cut, hwhole, Utf16.textBeforeNul]

lemma string_of_text {block key : Bytes} (hkind : Bytes.u16? block 4 = some textKind)
    (hkey : Bytes.from? block blockHeader = some key) :
    entry? block =
      (Bytes.from? block (align4 (blockHeader + 2 * (Utf16.unitsBeforeNul key).length + 2))).bind
        fun value =>
          let text := Utf16.textBeforeNul value
          if text = "" then none else some ⟨Utf16.textBeforeNul key, text⟩ := by
  rw [ entry?, hkind, hkey]
  rfl

lemma exactString_ok (block : Bytes) : exactString? block = .ok ( entry? block) := by
  unfold exactString?
  cases hkind : Bytes.u16? block 4 with
  | none => simp [ entry?, hkind]
  | some kind =>
    cases hkey : Bytes.from? block blockHeader with
    | none => simp [ entry?, hkind, hkey]
    | some key =>
      dsimp only
      split_ifs with htext
      · simp [ entry?, hkind, htext]
      · have hslice := exactSlice_ok (s := ⟨0, 2 * (Utf16.unitsBeforeNul key).length⟩)
          (Nat.zero_le _) (size_unitsBeforeNul key)
        rw [not_not.mp htext] at hkind
        rw [hslice, except_ok_bind, textBeforeNul_cut, string_of_text hkind hkey]
        rfl

lemma exactStrings_ok (data : Bytes) :
    exactStrings data = .ok ((blocks data 0).filterMap entry?) := by
  rw [exactStrings, exactBlocks_ok, except_ok_bind, mapM_ok fun block _ => exactString_ok block,
    except_ok_bind, List.filterMap_map]
  rfl

lemma exactTables_ok (data : Bytes) : exactTables data = .ok (ofTables data) := by
  rw [exactTables, exactBlocks_ok, except_ok_bind, mapM_ok fun table _ => exactStrings_ok _,
    except_ok_bind, ofTables, List.flatMap]
  rfl

lemma exactResource_ok (data : Bytes) : exactResource data = .ok (ofResource data) := by
  rw [exactResource, ofResource_eq]
  cases hspan : tablesSpan? data with
  | none => rfl
  | some s =>
    obtain ⟨hordered, hstop⟩ := tablesSpan?_some hspan
    dsimp only
    rw [exactSlice_ok hordered hstop, except_ok_bind, exactTables_ok]
    rfl

end Exact

/-- All slices that are taken of a version resource are in it. Its entries are decoded from spans of
at least ten octets that stand one behind the other, so it has no more entries than a tenth of its
octets, and a walk over blocks goes strictly forward with every length that it reads. -/
theorem version_entries_apart (data : Bytes) :
    exactResource data = .ok (ofResource data) ∧
      (∃ spans, List.Forall₂ (SpelledIn data) spans (ofResource data) ∧ InOrder spans) ∧
      10 * (ofResource data).length ≤ data.size ∧
      ∀ bytes offset,
        blocks bytes offset = ((places bytes offset).filterMap (blockSpan? bytes)).map (·.cut bytes) ∧
          (places bytes offset).Pairwise (· < ·) ∧
          ∀ next, nextPlace? bytes offset = some next → offset < next ∧ offset + 2 ≤ bytes.size := by
  have hlength := (resource_spelledApart data).length_le (Nat.zero_le _)
  obtain ⟨spans, hspans, horder, -⟩ := resource_spelledApart data
  refine ⟨exactResource_ok data, ⟨spans, hspans, horder⟩, ?_, fun bytes offset => ⟨?_, ?_, ?_⟩⟩
  · rwa [Nat.zero_add] at hlength
  · exact blocks_eq_cut bytes offset
  · exact places_increasing bytes offset
  · exact fun next => nextPlace?_advances

end Hallmark.Proofs
