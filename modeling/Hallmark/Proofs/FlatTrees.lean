import Hallmark.Proofs.StoredTrees

/-!
# Resource trees that are flattened

A tree is turned into a list of directories and a list of leaves, in which each entry leads to a
directory or a leaf by its number. A directory takes its number before anything below it does, and
its entries when all below it is done.
-/

namespace Hallmark.Proofs

/-- What an entry leads to, by its number. -/
inductive Target where
  | directory (index : Nat)
  | leaf (index : Nat)

structure FlatTree where
  directories : List (List (UInt32 × Target))
  leaves : List (List UInt8)

namespace FlatTree

def empty : FlatTree := ⟨[], []⟩

instance : Append FlatTree :=
  ⟨fun F G => ⟨F.directories ++ G.directories, F.leaves ++ G.leaves⟩⟩

/-! ## The pass -/

section Pass
variable {α : Type} (child : FlatTree → α → FlatTree × Target)

def flattenEntries : FlatTree → List (UInt32 × α) → FlatTree × List (UInt32 × Target)
  | flat, [] => (flat, [])
  | flat, e :: es =>
    let (grown, target) := child flat e.2
    let (full, targets) := flattenEntries grown es
    (full, (e.1, target) :: targets)

/-- Takes the next number for a directory, and sets its entries once they are known. -/
def flattenDirectory (flat : FlatTree) (entries : List (UInt32 × α)) : FlatTree × Target :=
  let index := flat.directories.length
  let (full, targets) := flattenEntries child ⟨flat.directories ++ [[]], flat.leaves⟩ entries
  (⟨full.directories.set index targets, full.leaves⟩, .directory index)

end Pass

def flattenLeaf (flat : FlatTree) (bytes : List UInt8) : FlatTree × Target :=
  (⟨flat.directories, flat.leaves ++ [bytes]⟩, .leaf flat.leaves.length)

def flatten : (below : Nat) → FlatTree → Tree UInt32 below → FlatTree × Target
  | 0, flat, entries => flattenDirectory flattenLeaf flat entries
  | below + 1, flat, entries => flattenDirectory (flatten below) flat entries

/-! ## What a number leads to -/

section Leads
variable (F : FlatTree)

def LeadsToLeaf (bytes : List UInt8) : Target → Prop
  | .directory _ => False
  | .leaf j => F.leaves[j]? = some bytes

def LeadsToEntries {α : Type} (child : α → Target → Prop) (entries : List (UInt32 × α)) :
    List (UInt32 × Target) → Prop :=
  List.Forall₂ (fun e t => e.1 = t.1 ∧ child e.2 t.2) entries

def LeadsToDirectory {α : Type} (child : α → Target → Prop) (entries : List (UInt32 × α)) :
    Target → Prop
  | .directory i => ∃ targets, F.directories[i]? = some targets ∧
      LeadsToEntries child entries targets
  | .leaf _ => False

/-- The number leads to the directory, and from there to all that is below it. -/
def LeadsTo : (below : Nat) → Tree UInt32 below → Target → Prop
  | 0, entries => LeadsToDirectory F F.LeadsToLeaf entries
  | below + 1, entries => LeadsToDirectory F (LeadsTo below) entries

variable {F}

lemma directory_of_leadsTo {below : Nat} {entries : Tree UInt32 below} {target : Target}
    (h : LeadsTo F below entries target) :
    ∃ i targets, target = .directory i ∧ F.directories[i]? = some targets := by
  cases target with
  | leaf j => cases below <;> exact h.elim
  | directory i =>
    cases below <;>
    · obtain ⟨targets, htargets, -⟩ := h
      exact ⟨i, targets, rfl, htargets⟩

end Leads

/-- Behind as much as `flat` has, `F` goes on with `part`. -/
structure Continues (F flat part : FlatTree) : Prop where
  directories : part.directories <+: F.directories.drop flat.directories.length
  leaves : part.leaves <+: F.leaves.drop flat.leaves.length

namespace Continues
variable {F flat part rest : FlatTree}

lemma drop_add {α : Type} {xs l rest : List α} {n : Nat} (h : l ++ rest <+: xs.drop n) :
    rest <+: xs.drop (n + l.length) := by
  obtain ⟨after, hafter⟩ := h
  refine ⟨after, ?_⟩
  rw [← List.drop_drop, ← hafter, List.append_assoc, List.drop_left]

lemma left (h : Continues F flat (part ++ rest)) : Continues F flat part :=
  ⟨(List.prefix_append _ _).trans h.directories, (List.prefix_append _ _).trans h.leaves⟩

lemma right (h : Continues F flat (part ++ rest)) : Continues F (flat ++ part) rest := by
  have hdirectories := drop_add h.directories
  have hleaves := drop_add h.leaves
  rw [← List.length_append] at hdirectories hleaves
  exact ⟨hdirectories, hleaves⟩

lemma self (F : FlatTree) : Continues F empty F :=
  ⟨List.prefix_rfl, List.prefix_rfl⟩

end Continues

/-! ## What the pass adds -/

/-- What `f` returns leads to the item in every flat tree that keeps what `f` adds to one. -/
def Adds {α β : Type} (f : FlatTree → α → FlatTree × β) (leads : FlatTree → α → β → Prop) : Prop :=
  ∀ flat a, ∃ part, (f flat a).1 = flat ++ part ∧
    ∀ F, Continues F flat part → leads F a (f flat a).2

section Adding
variable {α : Type} {child : FlatTree → α → FlatTree × Target}
  {leads : FlatTree → α → Target → Prop}

lemma getElem?_of_prefix_drop {xs ys : List α} {y : α} {n : Nat} (h : y :: ys <+: xs.drop n) :
    xs[n]? = some y := by
  obtain ⟨after, hafter⟩ := h
  rw [← Nat.add_zero n, ← List.getElem?_drop, ← hafter]
  rfl

lemma adds_leaf : Adds flattenLeaf LeadsToLeaf := by
  intro flat bytes
  refine ⟨⟨[], [bytes]⟩, ?_, fun F hF => getElem?_of_prefix_drop hF.leaves⟩
  change FlatTree.mk _ _ = ⟨flat.directories ++ [], _⟩
  rw [List.append_nil]

lemma append_empty (flat : FlatTree) : flat ++ empty = flat := by
  change FlatTree.mk (flat.directories ++ []) (flat.leaves ++ []) = flat
  rw [List.append_nil, List.append_nil]

lemma append_assoc (F G H : FlatTree) : F ++ G ++ H = F ++ (G ++ H) := by
  change FlatTree.mk (_ ++ _ ++ _) (_ ++ _ ++ _) = ⟨_ ++ (_ ++ _), _ ++ (_ ++ _)⟩
  rw [List.append_assoc, List.append_assoc]

lemma adds_entries (h : Adds child leads) :
    Adds (flattenEntries child) fun F => LeadsToEntries (leads F) := by
  intro flat entries
  induction entries generalizing flat with
  | nil => exact ⟨empty, (append_empty flat).symm, fun F _ => List.Forall₂.nil⟩
  | cons e es ih =>
    obtain ⟨part, hpart, hchild⟩ := h flat e.2
    obtain ⟨rest, hrest, hentries⟩ := ih (child flat e.2).1
    rw [hpart] at hentries
    refine ⟨part ++ rest, ?_, fun F hF => ?_⟩
    · rw [← append_assoc, ← hpart]
      exact hrest
    · exact List.Forall₂.cons ⟨rfl, hchild F hF.left⟩ (hpart ▸ hentries F hF.right)

lemma adds_directory (h : Adds child leads) :
    Adds (flattenDirectory child) fun F => LeadsToDirectory F (leads F) := by
  intro flat entries
  obtain ⟨part, hpart, hentries⟩ := adds_entries h ⟨flat.directories ++ [[]], flat.leaves⟩ entries
  -- The empty directory keeps the number until its entries are there.
  have hset (targets : List (UInt32 × Target)) :
      (flat.directories ++ [[]] ++ part.directories).set flat.directories.length targets =
        flat.directories ++ targets :: part.directories := by
    rw [List.append_assoc, List.set_append_right _ _ (Nat.le_refl _), Nat.sub_self]
    rfl
  generalize htargets : (flattenEntries child ⟨flat.directories ++ [[]], flat.leaves⟩ entries).2 =
    targets at hentries
  refine ⟨⟨targets :: part.directories, part.leaves⟩, ?_, fun F hF => ?_⟩
  · change FlatTree.mk _ _ = ⟨_, _⟩
    rw [htargets, hpart]
    exact congrArg (FlatTree.mk · _) (hset targets)
  · refine ⟨targets, getElem?_of_prefix_drop hF.directories, hentries F ⟨?_, hF.leaves⟩⟩
    have hbehind := Continues.drop_add (l := [targets]) hF.directories
    rwa [List.length_append]

/-- The pass adds all that the number it returns leads to. -/
theorem flatten_adds (below : Nat) : Adds (flatten below) fun F => LeadsTo F below := by
  induction below with
  | zero => exact adds_directory adds_leaf
  | succ below ih => exact adds_directory ih

/-- The flat tree of a tree, in which the first directory leads to all of it. -/
def of {below : Nat} (root : Tree UInt32 below) : FlatTree := (flatten below empty root).1

theorem leadsTo_of {below : Nat} (root : Tree UInt32 below) :
    LeadsTo (of root) below root (.directory 0) := by
  obtain ⟨part, hpart, hleads⟩ := flatten_adds below empty root
  have hnumber : (flatten below empty root).2 = .directory 0 := by
    cases below <;> rfl
  rw [hnumber] at hleads
  apply hleads
  rw [of, hpart]
  exact Continues.self part

end Adding
end FlatTree
end Hallmark.Proofs
