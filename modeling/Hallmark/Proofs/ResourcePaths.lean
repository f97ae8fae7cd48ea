import Hallmark.Pe.ResourceTree
import Hallmark.Proofs.CheckedReads
import Hallmark.Proofs.StatefulRuns
import Mathlib.Data.List.Forall2

/-!
# The paths of a resource tree

A path names an entry of the directory of types, an entry of the directory that this one leads to,
and so on. A walk that succeeds visits every path once and in lexicographic order, also where
directories are shared or lead back to one another, and adds the leaf at its end.
-/

namespace Hallmark.Proofs
open Pe Pe.ResourceTree

/-- What is stored of an entry of a directory. -/
structure DirectoryEntry where
  selector : UInt32
  target : UInt32

/-- A directory with `count` entries stands at `offset`, and all of it lies in the section. -/
structure DirectoryAt (tree : ResourceSection) (offset count : Nat) : Prop where
  counts : ∃ named numbered, Bytes.u16? tree.bytes (offset + 12) = some named ∧
    Bytes.u16? tree.bytes (offset + 14) = some numbered ∧ count = named.toNat + numbered.toNat
  inside : offset + 16 + count * 8 ≤ tree.bytes.size

/-- The entry with number `i` of the directory at `offset` is `e`. -/
structure EntryAt (tree : ResourceSection) (offset i : Nat) (e : DirectoryEntry) : Prop where
  directory : ∃ count, DirectoryAt tree offset count ∧ i < count
  selector : Bytes.u32? tree.bytes (offset + 16 + i * 8) = some e.selector
  target : Bytes.u32? tree.bytes (offset + 16 + i * 8 + 4) = some e.target

lemma EntryAt.unique {tree : ResourceSection} {offset i : Nat} {d e : DirectoryEntry}
    (hd : EntryAt tree offset i d) (he : EntryAt tree offset i e) : d = e := by
  have hselector := hd.selector.symm.trans he.selector
  have htarget := hd.target.symm.trans he.target
  cases d
  cases e
  simp_all

/-! ## Opening a directory and reading an entry -/

/-- The number of entries of the directory at `offset`, if all of it is there. -/
def directorySize (tree : ResourceSection) (offset : Nat) : Except Error Nat := do
  let _ ← slice tree.bytes offset headerSize
  let named ← u16 tree.bytes (offset + 12)
  let numbered ← u16 tree.bytes (offset + 14)
  let count := named.toNat + numbered.toNat
  let _ ← slice tree.bytes (offset + headerSize) (count * entrySize)
  return count

def charge (options : Options) (count : Nat) : Walk Nat := do
  let progress ← get
  if options.maxResourceEntries.toNat < progress.entries + count then
    throw (.limitExceeded .resourceEntries)
  set { progress with directories := progress.directories + 1, entries := progress.entries + count }
  return count

/-- The type that an entry belongs to: that of its directory, or the one that it selects. -/
def labelOf (tree : ResourceSection) (label : Option String) (selector : UInt32) :
    Except Error String :=
  match label with
  | some name => .ok name
  | none => typeLabel tree selector

def labelledEntry (tree : ResourceSection) (label : Option String) (place : Nat) :
    Except Error (DirectoryEntry × String) := do
  let selector ← u32 tree.bytes place
  let target ← u32 tree.bytes (place + 4)
  let name ← labelOf tree label selector
  return (⟨selector, target⟩, name)

/-- Goes on from an entry, to a directory of the next level or to a leaf. -/
def follow (tree : ResourceSection) (options : Options)
    (descend : Option (Nat → String → Walk Unit)) (e : DirectoryEntry) (name : String) :
    Walk Unit :=
  match hasHighBit e.target, descend with
  | true, none => throw .resourceDepthExceeded
  | true, some walk => walk (lowBits e.target) name
  | false, some _ => throw .dataAboveLanguageLevel
  | false, none => takeLeaf tree options e.target.toNat name e.selector.toUInt16

section Parts
variable {tree : ResourceSection} {options : Options} {offset : Nat} {label : Option String}
  {s t : Progress}

lemma openDirectory_eq :
    openDirectory tree options offset =
      ofExcept (directorySize tree offset) >>= charge options := by
  simp only [openDirectory, directorySize, charge, ofExcept_bind, ofExcept_pure, bind_assoc,
    pure_bind]

lemma visit_eq {descend : Option (Nat → String → Walk Unit)} {place : Nat} :
    visit tree options label descend place =
      ofExcept (labelledEntry tree label place) >>= fun r =>
        follow tree options descend r.1 r.2 := by
  have hentry : (ofExcept (labelledEntry tree label place) >>= fun r =>
      follow tree options descend r.1 r.2) = ofExcept (u32 tree.bytes place) >>= fun selector =>
        ofExcept (u32 tree.bytes (place + 4)) >>= fun target =>
          ofExcept (labelOf tree label selector) >>= fun name =>
            follow tree options descend ⟨selector, target⟩ name := by
    simp only [labelledEntry, ofExcept_bind, ofExcept_pure, bind_assoc, pure_bind]
  rw [hentry]
  cases label <;> rfl

lemma directorySize_ok {count : Nat} :
    directorySize tree offset = .ok count ↔ DirectoryAt tree offset count := by
  simp only [directorySize, bind_ok]
  constructor
  · rintro ⟨_, -, named, hnamed, numbered, hnumbered, _, hentries, hcount⟩
    cases hcount
    exact ⟨⟨named, numbered, u16_ok.mp hnamed, u16_ok.mp hnumbered, rfl⟩, (slice_ok.mp hentries).1⟩
  · rintro ⟨⟨named, numbered, hnamed, hnumbered, rfl⟩, hinside⟩
    have hheader : offset + headerSize ≤ tree.bytes.size := by
      simp only [headerSize]
      omega
    exact ⟨_, slice_ok.mpr ⟨hheader, rfl⟩, named, u16_ok.mpr hnamed, numbered, u16_ok.mpr hnumbered,
      _, slice_ok.mpr ⟨hinside, rfl⟩, rfl⟩

lemma run_charge {count : Nat} :
    (charge options count).run s =
      if options.maxResourceEntries.toNat < s.entries + count then
        .error (.limitExceeded .resourceEntries) s
      else .ok count ⟨s.directories + 1, s.entries + count, s.leaves⟩ := by
  unfold charge
  rw [EStateM.run_bind]
  simp only [EStateM.run_get]
  split_ifs <;> rfl

lemma run_takeLeaf {name : String} {language : UInt16} :
    (takeLeaf tree options offset name language).run s =
      if options.maxResources.toNat ≤ s.leaves.size then .error (.limitExceeded .resourceLeaves) s
      else match leafAt tree options offset name language with
        | .ok leaf => .ok () ⟨s.directories, s.entries, s.leaves.push leaf⟩
        | .error e => .error e s := by
  unfold takeLeaf
  rw [EStateM.run_bind]
  simp only [EStateM.run_get]
  split_ifs with h
  · rfl
  · cases leafAt tree options offset name language <;> rfl

lemma takeLeaf_ok {name : String} {language : UInt16} {a : Unit} :
    (takeLeaf tree options offset name language).run s = .ok a t ↔
      s.leaves.size < options.maxResources.toNat ∧
        ∃ leaf, leafAt tree options offset name language = .ok leaf ∧
          t = ⟨s.directories, s.entries, s.leaves.push leaf⟩ := by
  rw [run_takeLeaf]
  split_ifs with hfull
  · simp [Nat.not_lt.mpr hfull]
  · cases leafAt tree options offset name language <;> simp [eq_comm, Nat.not_le.mp hfull]

lemma takeLeaf_error {name : String} {language : UInt16} {e : Error} :
    (takeLeaf tree options offset name language).run s = .error e t ↔ t = s ∧
      (options.maxResources.toNat ≤ s.leaves.size ∧ e = .limitExceeded .resourceLeaves ∨
        s.leaves.size < options.maxResources.toNat ∧
          leafAt tree options offset name language = .error e) := by
  rw [run_takeLeaf]
  split_ifs with hfull
  · simp [hfull, Nat.not_lt.mpr hfull, eq_comm, and_comm]
  · cases leafAt tree options offset name language <;>
      simp [hfull, eq_comm, and_comm, Nat.not_le.mp hfull]

lemma labelledEntry_ok {place : Nat} {e : DirectoryEntry} {name : String}
    (h : labelledEntry tree label place = .ok (e, name)) :
    Bytes.u32? tree.bytes place = some e.selector ∧
      Bytes.u32? tree.bytes (place + 4) = some e.target ∧
      labelOf tree label e.selector = .ok name := by
  simp only [labelledEntry, bind_ok] at h
  obtain ⟨selector, hselector, target, htarget, name', hname, hentry⟩ := h
  cases hentry
  exact ⟨u32_ok.mp hselector, u32_ok.mp htarget, hname⟩

end Parts

/-! ## Walks -/

/-- How a walk goes on to a directory of the next level, if there are levels below. -/
def descent (tree : ResourceSection) (options : Options) : Nat → Option (Nat → String → Walk Unit)
  | 0 => none
  | below + 1 => some fun child name => walk tree options below child (some name)

/-- Visits the entry with number `i` of the directory at `offset`. -/
def visitNumber (tree : ResourceSection) (options : Options) (below offset : Nat)
    (label : Option String) (i : Nat) : Walk Unit :=
  ofExcept (labelledEntry tree label (offset + 16 + i * 8)) >>= fun r =>
    follow tree options (descent tree options below) r.1 r.2

lemma walk_eq (tree : ResourceSection) (options : Options) (below offset : Nat)
    (label : Option String) :
    walk tree options below offset label =
      ofExcept (directorySize tree offset) >>= fun count => charge options count >>= fun count =>
        (List.range count).forM (visitNumber tree options below offset label) := by
  cases below <;>
  · rw [walk, openDirectory_eq, bind_assoc]
    simp only [visit_eq]
    rfl

def entryCount (tree : ResourceSection) (offset : Nat) : Nat :=
  match directorySize tree offset with
  | .ok count => count
  | .error _ => 0

/-- Where the entry with number `i` of the directory at `offset` leads to. -/
def childOffset (tree : ResourceSection) (offset i : Nat) : Nat :=
  lowBits ((Bytes.u32? tree.bytes (offset + 16 + i * 8 + 4)).getD 0)

/-- The number of entries of the directory at `offset` and of those below it, where each is counted
as often as a path leads to it. -/
def entryTotal (tree : ResourceSection) : (below offset : Nat) → Nat
  | 0, offset => entryCount tree offset
  | below + 1, offset => entryCount tree offset +
      ((List.range (entryCount tree offset)).map fun i =>
        entryTotal tree below (childOffset tree offset i)).sum

/-- The paths from the directory at `offset` to the lowest level, in lexicographic order. -/
def paths (tree : ResourceSection) : (below offset : Nat) → List (List Nat)
  | 0, offset => (List.range (entryCount tree offset)).flatMap fun i => [[i]]
  | below + 1, offset => (List.range (entryCount tree offset)).flatMap fun i =>
      (paths tree below (childOffset tree offset i)).map (i :: ·)

/-- The leaf at the end of a path. The type is that of the first entry, unless `label` gives it. -/
inductive LeafOn (tree : ResourceSection) (options : Options) :
    (offset : Nat) → (label : Option String) → List Nat → ResourceLeaf → Prop
  | leaf {offset i : Nat} {label : Option String} {e : DirectoryEntry} {name : String}
      {leaf : ResourceLeaf} : EntryAt tree offset i e → labelOf tree label e.selector = .ok name →
      hasHighBit e.target = false →
      leafAt tree options e.target.toNat name e.selector.toUInt16 = .ok leaf →
      LeafOn tree options offset label [i] leaf
  | down {offset i : Nat} {label : Option String} {e : DirectoryEntry} {name : String}
      {path : List Nat} {leaf : ResourceLeaf} : EntryAt tree offset i e →
      labelOf tree label e.selector = .ok name → hasHighBit e.target →
      LeafOn tree options (lowBits e.target) (some name) path leaf →
      LeafOn tree options offset label (i :: path) leaf

/-- Between `s` and `t` a walk charged `cost` entries and read the leaves of `ps`. -/
def Adds (R : List Nat → ResourceLeaf → Prop) (ps : List (List Nat)) (cost : Nat)
    (s t : Progress) : Prop :=
  t.entries = s.entries + cost ∧
    ∃ ls, t.leaves.toList = s.leaves.toList ++ ls ∧ List.Forall₂ R ps ls

section Adds
variable {R : List Nat → ResourceLeaf → Prop} {s t u : Progress}

lemma Adds.refl (s : Progress) : Adds R [] 0 s s :=
  ⟨rfl, [], (List.append_nil _).symm, .nil⟩

lemma Adds.trans {ps qs : List (List Nat)} {m n : Nat} (h : Adds R ps m s t)
    (h' : Adds R qs n t u) : Adds R (ps ++ qs) (m + n) s u := by
  obtain ⟨hm, ls, hls, hps⟩ := h
  obtain ⟨hn, ls', hls', hqs⟩ := h'
  refine ⟨by omega, ls ++ ls', ?_, List.rel_append hps hqs⟩
  rw [hls', hls, List.append_assoc]

lemma adds_forM {f : Nat → Walk Unit} {ps : Nat → List (List Nat)} {cost : Nat → Nat}
    {l : List Nat} (hstep : ∀ i ∈ l, ∀ s t, (f i).run s = .ok () t → Adds R (ps i) (cost i) s t)
    (h : (l.forM f).run s = .ok () t) : Adds R (l.flatMap ps) (l.map cost).sum s t := by
  induction l generalizing s with
  | nil =>
    cases h
    exact Adds.refl _
  | cons i l ih =>
    rw [forM_cons_eq, run_bind_ok] at h
    obtain ⟨_, u, hfirst, hrest⟩ := h
    have hi := hstep i List.mem_cons_self s u hfirst
    have hl := ih (fun j hj => hstep j (List.mem_cons_of_mem i hj)) hrest
    exact hi.trans hl

end Adds

section Walk
variable {tree : ResourceSection} {options : Options} {offset : Nat} {label : Option String}
  {s t : Progress}

lemma DirectoryAt.entryCount_eq {count : Nat} (h : DirectoryAt tree offset count) :
    entryCount tree offset = count := by
  rw [entryCount, directorySize_ok.mpr h]

lemma EntryAt.lt_entryCount {i : Nat} {e : DirectoryEntry} (h : EntryAt tree offset i e) :
    i < entryCount tree offset := by
  obtain ⟨count, hdir, hi⟩ := h.directory
  rwa [hdir.entryCount_eq]

lemma EntryAt.childOffset_eq {i : Nat} {e : DirectoryEntry} (h : EntryAt tree offset i e) :
    childOffset tree offset i = lowBits e.target := by
  rw [childOffset, h.target, Option.getD_some]

lemma visitNumber_ok {below i count : Nat} (hdir : DirectoryAt tree offset count) (hi : i < count)
    (h : (visitNumber tree options below offset label i).run s = .ok () t) :
    ∃ e name, EntryAt tree offset i e ∧ labelOf tree label e.selector = .ok name ∧
      (follow tree options (descent tree options below) e name).run s = .ok () t := by
  rw [visitNumber, run_bind_ok] at h
  obtain ⟨⟨e, name⟩, u, hentry, hfollow⟩ := h
  rw [run_ofExcept_ok] at hentry
  obtain ⟨hentry, rfl⟩ := hentry
  obtain ⟨hselector, htarget, hlabel⟩ := labelledEntry_ok hentry
  exact ⟨e, name, ⟨⟨count, hdir, hi⟩, hselector, htarget⟩, hlabel, hfollow⟩

lemma follow_none_ok {e : DirectoryEntry} {name : String}
    (h : (follow tree options none e name).run s = .ok () t) :
    hasHighBit e.target = false ∧
      ∃ leaf, leafAt tree options e.target.toNat name e.selector.toUInt16 = .ok leaf ∧
        t = ⟨s.directories, s.entries, s.leaves.push leaf⟩ := by
  unfold follow at h
  cases hbit : hasHighBit e.target with
  | true => simp [hbit] at h
  | false =>
    simp only [hbit] at h
    exact ⟨rfl, (takeLeaf_ok.mp h).2⟩

lemma follow_some_ok {below : Nat} {e : DirectoryEntry} {name : String}
    (h : (follow tree options (descent tree options (below + 1)) e name).run s = .ok () t) :
    hasHighBit e.target ∧
      (walk tree options below (lowBits e.target) (some name)).run s = .ok () t := by
  unfold follow at h
  cases hbit : hasHighBit e.target with
  | false => simp [hbit, descent] at h
  | true => exact ⟨rfl, by simpa only [hbit, descent] using h⟩

lemma walk_run_ok {below : Nat} (h : (walk tree options below offset label).run s = .ok () t) :
    DirectoryAt tree offset (entryCount tree offset) ∧
      ((List.range (entryCount tree offset)).forM
        (visitNumber tree options below offset label)).run
        ⟨s.directories + 1, s.entries + entryCount tree offset, s.leaves⟩ = .ok () t := by
  rw [walk_eq, run_bind_ok] at h
  obtain ⟨count, u, hsize, h⟩ := h
  rw [run_ofExcept_ok, directorySize_ok] at hsize
  obtain ⟨hdir, rfl⟩ := hsize
  rw [hdir.entryCount_eq]
  refine ⟨hdir, ?_⟩
  rw [EStateM.run_bind, run_charge] at h
  split_ifs at h
  · exact h

lemma visitNumber_zero_adds {i : Nat} (hdir : DirectoryAt tree offset (entryCount tree offset))
    (hi : i < entryCount tree offset)
    (h : (visitNumber tree options 0 offset label i).run s = .ok () t) :
    Adds (LeafOn tree options offset label) [[i]] 0 s t := by
  obtain ⟨e, name, hentry, hlabel, hfollow⟩ := visitNumber_ok hdir hi h
  obtain ⟨hbit, leaf, hleaf, rfl⟩ := follow_none_ok hfollow
  refine ⟨rfl, [leaf], by simp, ?_⟩
  exact .cons (.leaf hentry hlabel hbit hleaf) .nil

lemma visitNumber_succ_adds {below i : Nat}
    (hdir : DirectoryAt tree offset (entryCount tree offset)) (hi : i < entryCount tree offset)
    (hwalk : ∀ {offset label s t}, (walk tree options below offset label).run s = .ok () t →
      Adds (LeafOn tree options offset label) (paths tree below offset)
        (entryTotal tree below offset) s t)
    (h : (visitNumber tree options (below + 1) offset label i).run s = .ok () t) :
    Adds (LeafOn tree options offset label)
      ((paths tree below (childOffset tree offset i)).map (i :: ·))
      (entryTotal tree below (childOffset tree offset i)) s t := by
  obtain ⟨e, name, hentry, hlabel, hfollow⟩ := visitNumber_ok hdir hi h
  obtain ⟨hbit, hchild⟩ := follow_some_ok hfollow
  obtain ⟨hcost, ls, hls, hpaths⟩ := hwalk hchild
  rw [hentry.childOffset_eq]
  refine ⟨hcost, ls, hls, List.forall₂_map_left_iff.mpr ?_⟩
  exact hpaths.imp fun path leaf hleaf => .down hentry hlabel hbit hleaf

/-- A walk that succeeds charges every entry as often as it visits it, and adds one leaf for each
path, in the order of the paths. -/
theorem walk_adds {below : Nat} (h : (walk tree options below offset label).run s = .ok () t) :
    Adds (LeafOn tree options offset label) (paths tree below offset)
      (entryTotal tree below offset) s t := by
  induction below generalizing offset label s t with
  | zero =>
    obtain ⟨hdir, hloop⟩ := walk_run_ok h
    obtain ⟨hcost, hleaves⟩ := adds_forM (fun i hi s t hvisit =>
      visitNumber_zero_adds hdir (List.mem_range.mp hi) hvisit) hloop
    refine ⟨?_, hleaves⟩
    simpa [entryTotal] using hcost
  | succ below ih =>
    obtain ⟨hdir, hloop⟩ := walk_run_ok h
    obtain ⟨hcost, hleaves⟩ := adds_forM (fun i hi s t hvisit =>
      visitNumber_succ_adds hdir (List.mem_range.mp hi) ih hvisit) hloop
    refine ⟨?_, hleaves⟩
    rw [hcost, entryTotal, Nat.add_assoc]

end Walk
end Hallmark.Proofs
