import Hallmark.Proofs.AppendedTrees
import Hallmark.Proofs.FilledSections
import Mathlib.Tactic.MkIffOfInductiveProp

/-!
# Resource trees are read back as they were written

Whether a tree was appended piece by piece or flattened and filled in, its leaves are read in
depth-first order.
-/

namespace Hallmark.Proofs
open Pe Pe.ResourceTree

/-- The section at `address` that a tree is appended to. -/
def appendedSection (address : UInt32) (root : List (Selector × Tree Selector 1)) :
    ResourceSection :=
  ⟨(writeDirectory address levelsBelowRoot [] root).toArray, address⟩

/-- The section at `address` that is filled in with a flat tree. -/
def filledSection (address : UInt32) (root : List (UInt32 × Tree UInt32 1)) : ResourceSection :=
  let flat := @FlatTree.of levelsBelowRoot root
  ⟨(flat.sectionOctets address).toArray, address⟩

/-- A tree whose counts and offsets fit into their fields, and for which the limits allow. -/
@[mk_iff]
structure Tree.Fits {σ : Type} (options : Options) (tree : ResourceSection) (text : σ → String)
    (root : List (σ × Tree σ 1)) : Prop where
  narrow : Tree.Narrow (σ := σ) levelsBelowRoot root
  size : tree.bytes.size < 2 ^ 31
  address : tree.virtualAddress.toNat + tree.bytes.size < 2 ^ 32
  entries : Tree.entryTotal (σ := σ) levelsBelowRoot root ≤ options.maxResourceEntries.toNat
  leaves : (Tree.leaves options text root).length ≤ options.maxResources.toNat

instance {σ : Type} (options : Options) (tree : ResourceSection) (text : σ → String)
    (root : List (σ × Tree σ 1)) : Decidable (Tree.Fits options tree text root) :=
  have := Tree.decidableNarrow levelsBelowRoot root
  decidable_of_iff' _ (Tree.fits_iff options tree text root)

section Trees
variable {options : Options} {address : UInt32}

lemma leaves_appended {root : List (Selector × Tree Selector 1)}
    (htypes : ∀ e ∈ root, e.1.Writable)
    (hfits : Tree.Fits options (appendedSection address root) Selector.text root) :
    leaves (appendedSection address root) options =
      .ok (Tree.leaves options Selector.text root) := by
  have hplaced := Placed.self (appendedSection address root).bytes
  have hwritten : (appendedSection address root).bytes.toList =
      directoryOctets address levelsBelowRoot 0 root :=
    writeDirectory_eq address levelsBelowRoot [] root
  rw [hwritten] at hplaced
  have hstored := stored_of_placed hfits.size hfits.address hfits.narrow hplaced
  refine leaves_of_stored hstored (fun e he word hword => ?_) hfits.entries hfits.leaves
  exact typeLabel_of_selected (htypes e he) hword

lemma leaves_filled {root : List (UInt32 × Tree UInt32 1)}
    (htypes : ∀ e ∈ root, e.1.toNat < 2 ^ 31)
    (hfits : Tree.Fits options (filledSection address root) resourceTypeName root) :
    leaves (filledSection address root) options =
      .ok (Tree.leaves options resourceTypeName root) := by
  have hleads := @FlatTree.leadsTo_of levelsBelowRoot root
  obtain ⟨targets, htargets, -⟩ := id hleads
  have hstored := FlatTree.stored_of_leadsTo rfl hfits.size hfits.address hfits.narrow
    (FlatTree.first_place htargets) hleads
  refine leaves_of_stored hstored (fun e he word hword => ?_) hfits.entries hfits.leaves
  exact typeLabel_of_selected (s := .id e.1) (htypes e he) hword

/-- Whatever is written of a tree that fits, by either writer, its leaves are read in depth-first
order, each with the label of its type, its language and its bytes. -/
theorem resource_trees_read_back (options : Options) (address : UInt32) :
    (∀ root : List (Selector × Tree Selector 1), (∀ e ∈ root, e.1.Writable) →
      Tree.Fits options (appendedSection address root) Selector.text root →
      leaves (appendedSection address root) options =
        .ok (Tree.leaves options Selector.text root)) ∧
    ∀ root : List (UInt32 × Tree UInt32 1), (∀ e ∈ root, e.1.toNat < 2 ^ 31) →
      Tree.Fits options (filledSection address root) resourceTypeName root →
      leaves (filledSection address root) options =
        .ok (Tree.leaves options resourceTypeName root) :=
  ⟨fun _ => leaves_appended, fun _ => leaves_filled⟩

end Trees

/-- Types with a number and with a name, each with a name of its own. -/
def namedTypes : List (Selector × Tree Selector 1) := [
  (.id 3, [(.id 1, [(1033, [1, 2, 3])])]),
  (.name "CUSTOM", [(.name "𝄞", [(0x10804, []), (7, [4])]), (.id 7, [])])]

def numberedTypes : List (UInt32 × Tree UInt32 1) := [
  (10, [(1, [(0x409, [1, 2, 3, 4, 5])]), (2, [(0x407, [6])])]),
  (99, [(1, [(0x10000, [7])])])]

theorem resource_trees_read_back_small :
    (leaves (appendedSection 0x4000 namedTypes) {}).map
        (·.map fun l => (l.typeLabel, l.language, l.data)) =
      .ok [("RT_ICON", 1033, #[1, 2, 3]), ("CUSTOM", 0x804, #[]), ("CUSTOM", 7, #[4])] ∧
    (leaves (filledSection 0x5000 numberedTypes) {}).map
        (·.map fun l => (l.typeLabel, l.language, l.data)) =
      .ok [("RT_RCDATA", 0x409, #[1, 2, 3, 4, 5]), ("RT_RCDATA", 0x407, #[6]), ("99", 0, #[7])] := by
  constructor
  · rw [(resource_trees_read_back {} 0x4000).1 namedTypes (by decide)
      (by decide +kernel)]
    decide
  · rw [(resource_trees_read_back {} 0x5000).2 numberedTypes (by decide)
      (by decide +kernel)]
    decide

end Hallmark.Proofs
