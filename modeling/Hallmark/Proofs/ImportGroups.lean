import Hallmark.Proofs.ImportRoundTrip
import Hallmark.Proofs.SortedCounts
import Mathlib.Data.List.Perm.Basic

/-!
# Imports by library

The names that are imported are gathered under the names of their libraries in lower case. Nothing
is lost or added: a map that was filled pair by pair holds the pairs of its list, those of one key
in their order.
-/

namespace Hallmark.Proofs
open Pe

/-! ## Lists of values in sorted maps -/

section Gathering
variable {κ υ : Type}

/-- The pairs of a key with each of its values. -/
def spread (entries : List (κ × List υ)) : List (κ × υ) :=
  entries.flatMap fun e => e.2.map fun v => (e.1, v)

lemma length_spread (entries : List (κ × List υ)) :
    (spread entries).length = (entries.map fun e => e.2.length).sum := by
  simp [spread, List.length_flatMap]

variable [DecidableEq κ]

/-- The values that pairs have for a key, in order. -/
def valuesFor (key : κ) (ps : List (κ × υ)) : List υ := (ps.filter fun p => p.1 = key).map Prod.snd

lemma valuesFor_concat (key : κ) (ps : List (κ × υ)) (p : κ × υ) :
    valuesFor key (ps ++ [p]) = valuesFor key ps ++ if p.1 = key then [p.2] else [] := by
  unfold valuesFor
  rw [List.filter_append, List.map_append]
  by_cases h : p.1 = key <;> simp [h]

lemma valuesFor_ne_nil {key : κ} {ps : List (κ × υ)} :
    valuesFor key ps ≠ [] ↔ ∃ p ∈ ps, p.1 = key := by
  simp [valuesFor]

variable [LT κ] [DecidableLT κ]

/-- Whether its key is new or not, one more value is one more pair. -/
lemma spread_alterEntries (key : κ) (value : υ) (entries : List (κ × List υ)) :
    (spread (SortedMap.alterEntries key (fun before => before.getD [] ++ [value]) entries)).Perm
      ((key, value) :: spread entries) := by
  induction entries with
  | nil => exact .refl _
  | cons head rest ih =>
    obtain ⟨k, vs⟩ := head
    have hcons (us : List υ) (es : List (κ × List υ)) :
        spread ((k, us) :: es) = us.map (fun u => (k, u)) ++ spread es := rfl
    unfold SortedMap.alterEntries
    split_ifs with hbefore hsame
    · exact .refl _
    · subst hsame
      rw [hcons, hcons, Option.getD_some, List.map_append, List.append_assoc]
      exact List.perm_middle
    · rw [hcons, hcons]
      exact (ih.append_left _).trans List.perm_middle

variable [LE κ] [Std.IsLinearOrder κ] [Std.LawfulOrderLT κ]

/-- The map that gathers the values of each key. -/
def gather (ps : List (κ × υ)) : SortedMap κ (List υ) :=
  ps.foldl (fun m p => m.alter p.1 fun before => before.getD [] ++ [p.2]) .empty

lemma gather_concat (ps : List (κ × υ)) (p : κ × υ) :
    gather (ps ++ [p]) = (gather ps).alter p.1 fun before => before.getD [] ++ [p.2] := by
  rw [gather, List.foldl_concat, gather]

lemma spread_gather (ps : List (κ × υ)) : (spread (gather ps).entries).Perm ps := by
  induction ps using List.reverseRecOn with
  | nil => exact .refl _
  | append_singleton ps p ih =>
    rw [gather_concat]
    have hlast : (p :: ps).Perm (ps ++ [p]) := (List.perm_append_singleton p ps).symm
    exact (spread_alterEntries p.1 p.2 _).trans ((ih.cons p).trans hlast)

/-- A key has its values in order, and is not there if it has none. -/
lemma valueAt?_gather (ps : List (κ × υ)) (key : κ) :
    valueAt? (gather ps) key =
      if valuesFor key ps = [] then none else some (valuesFor key ps) := by
  induction ps using List.reverseRecOn with
  | nil => rfl
  | append_singleton ps p ih =>
    rw [gather_concat, valueAt?_alter, valuesFor_concat]
    by_cases hkey : key = p.1
    · subst hkey
      have hbefore : (valueAt? (gather ps) p.1).getD [] = valuesFor p.1 ps := by
        rw [ih]
        split_ifs with hnone
        · exact hnone.symm
        · rfl
      simp [hbefore]
    · simp [hkey, Ne.symm hkey, ih]

omit [DecidableLT κ] [Std.IsLinearOrder κ] in
lemma valueAt?_eq_some {m : SortedMap κ υ} {key : κ} {value : υ} :
    valueAt? m key = some value ↔ (key, value) ∈ m.entries := by
  unfold valueAt?
  constructor
  · intro h
    obtain ⟨front, back, hsplit, -⟩ := List.lookup_eq_some_iff.mp h
    simp [hsplit]
  · intro h
    obtain ⟨front, back, hsplit⟩ := List.append_of_mem h
    have hsorted := m.sorted
    rw [hsplit] at hsorted
    refine List.lookup_eq_some_iff.mpr ⟨front, back, hsplit, fun p hp => bne_iff_ne.mpr ?_⟩
    have hless := (List.pairwise_append.mp hsorted).2.2 p hp (key, value) List.mem_cons_self
    intro hsame
    rw [hsame] at hless
    exact Std.lt_irrefl hless

lemma mem_gather {ps : List (κ × υ)} {key : κ} {values : List υ} :
    (key, values) ∈ (gather ps).entries ↔ values ≠ [] ∧ values = valuesFor key ps := by
  rw [← valueAt?_eq_some, valueAt?_gather]
  split_ifs with hnone
  · simp [hnone]
  · rw [Option.some.injEq]
    constructor
    · rintro rfl
      exact ⟨hnone, rfl⟩
    · rintro ⟨-, rfl⟩
      rfl

lemma keys_gather {ps : List (κ × υ)} {key : κ} :
    key ∈ (gather ps).entries.map Prod.fst ↔ ∃ p ∈ ps, p.1 = key := by
  rw [← valuesFor_ne_nil, List.mem_map]
  constructor
  · rintro ⟨⟨k, values⟩, hmem, rfl⟩
    obtain ⟨hne, rfl⟩ := mem_gather.mp hmem
    exact hne
  · intro hne
    exact ⟨(key, valuesFor key ps), mem_gather.mpr ⟨hne, rfl⟩, rfl⟩

omit [DecidableLT κ] [DecidableEq κ] [Std.IsLinearOrder κ] in
lemma nodup_keys (m : SortedMap κ υ) : (m.entries.map Prod.fst).Nodup := by
  refine List.pairwise_map.mpr (m.sorted.imp fun hless hsame => ?_)
  rw [hsame] at hless
  exact Std.lt_irrefl hless

end Gathering

/-! ## The map of an import table -/

section Imports
variable {dir : ImportDirectory} {options : Options} {hash : ImportHash} {es : List ImportEntry}

/-- The file name of a library in lower case, under which its functions are gathered. -/
def libraryKey (e : ImportEntry) : String := LetterCase.lower e.dllName

/-- The names that a list of entries asks for, with the keys of their libraries. -/
def namedImports (es : List ImportEntry) : List (String × String) :=
  es.filterMap fun e => e.name?.map fun name => (libraryKey e, name)

lemma nameMap_eq_gather (es : List ImportEntry) :
    ImportHash.nameMap es = gather (namedImports es) := by
  unfold ImportHash.nameMap gather namedImports
  rw [List.foldl_filterMap]
  congr 1
  funext m e
  cases e.name? <;> rfl

lemma valuesFor_namedImports (key : String) (es : List ImportEntry) :
    valuesFor key (namedImports es) =
      (es.filter fun e => libraryKey e = key).filterMap ImportEntry.name? := by
  induction es with
  | nil => rfl
  | cons e es ih =>
    unfold valuesFor namedImports at ih ⊢
    by_cases hkey : libraryKey e = key <;> cases hname : e.name? <;> simp [hkey, hname, ih]

lemma exists_mem_namedImports {key : String} :
    (∃ p ∈ namedImports es, p.1 = key) ↔ ∃ e ∈ es, e.name?.isSome ∧ libraryKey e = key := by
  unfold namedImports
  constructor
  · rintro ⟨p, hp, rfl⟩
    obtain ⟨e, he, hpair⟩ := List.mem_filterMap.mp hp
    obtain ⟨name, hname, rfl⟩ := Option.map_eq_some_iff.mp hpair
    exact ⟨e, he, Option.isSome_of_eq_some hname, rfl⟩
  · rintro ⟨e, he, hsome, rfl⟩
    obtain ⟨name, hname⟩ := Option.isSome_iff_exists.mp hsome
    exact ⟨(libraryKey e, name), List.mem_filterMap.mpr ⟨e, he, by rw [hname]; rfl⟩, rfl⟩

lemma length_namedImports (es : List ImportEntry) :
    (namedImports es).length = es.countP fun e => e.name?.isSome := by
  induction es with
  | nil => rfl
  | cons e es ih =>
    unfold namedImports at ih ⊢
    cases hname : e.name? <;> simp [hname, ih]

/-- An entry asks for a name or for a number. -/
lemma countP_name_add_ordinal (es : List ImportEntry) :
    es.countP (fun e => e.name?.isSome) + es.countP (fun e => e.ordinal?.isSome) = es.length := by
  have hother : ∀ e : ImportEntry, e.ordinal?.isSome = !e.name?.isSome := by
    rintro ⟨library, target⟩
    cases target <;> rfl
  have hsplit := List.length_eq_countP_add_countP (fun e : ImportEntry => e.name?.isSome) (l := es)
  simpa only [hother, Bool.not_eq_true, Bool.decide_eq_false] using hsplit.symm

lemma ofDirectory_some :
    ImportHash.ofDirectory (some dir) options = .ok hash ↔
      ∃ es, dir.entries options = .ok es ∧ hash = .ofEntries es := by
  rw [ImportHash.ofDirectory]
  cases dir.entries options <;> simp [Except.map, eq_comm]

end Imports

/-- The map of names parts the named entries of a table by the file names of their libraries in
lower case: each such name is a key once, and has the names of its entries as they are written, in
the order of the table and as often as they occur, wherever its descriptors stand. Ordinals are left
out, and nothing else. -/
theorem imports_gathered_by_library (dir : ImportDirectory) (options : Options) (hash : ImportHash)
    (h : ImportHash.ofDirectory (some dir) options = .ok hash) :
    ∃ es, dir.entries options = .ok es ∧
      (hash.imports.entries.map Prod.fst).Nodup ∧
      (∀ key, key ∈ hash.imports.entries.map Prod.fst ↔
        ∃ e ∈ es, e.name?.isSome ∧ libraryKey e = key) ∧
      (∀ key names, (key, names) ∈ hash.imports.entries → names ≠ [] ∧
        names = (es.filter fun e => libraryKey e = key).filterMap ImportEntry.name?) ∧
      (spread hash.imports.entries).Perm (namedImports es) ∧
      (hash.imports.entries.map fun l => l.2.length).sum = es.countP (fun e => e.name?.isSome) ∧
      (hash.imports.entries.map fun l => l.2.length).sum +
        es.countP (fun e => e.ordinal?.isSome) = es.length := by
  obtain ⟨es, hes, rfl⟩ := ofDirectory_some.mp h
  have himports : (ImportHash.ofEntries es).imports = gather (namedImports es) :=
    nameMap_eq_gather es
  have hperm := spread_gather (namedImports es)
  have hsum : ((gather (namedImports es)).entries.map fun l => l.2.length).sum =
      es.countP (fun e => e.name?.isSome) := by
    rw [← length_spread, hperm.length_eq, length_namedImports]
  refine ⟨es, hes, nodup_keys _, ?_, ?_, ?_, ?_, ?_⟩
  · intro key
    rw [himports, keys_gather, exists_mem_namedImports]
  · intro key names hmem
    rw [himports, mem_gather, valuesFor_namedImports] at hmem
    exact hmem
  · rw [himports]
    exact hperm
  · rw [himports]
    exact hsum
  · rw [himports, hsum]
    exact countP_name_add_ordinal es

/-- Two spellings of one library with another one between them, and a library that is asked for a
number only. -/
def interleavedRequests : List LibraryRequests :=
  [⟨"B.dll", [.name "f", .ordinal 7]⟩, ⟨"a.dll", [.name "g"]⟩, ⟨"b.DLL", [.name "F", .name "f"]⟩,
    ⟨"c.dll", [.ordinal 1]⟩]

theorem imports_gathered_by_library_interleaved :
    let dir := importDirectory .bits32 0x1000 interleavedRequests
    ∃ hash, ImportHash.ofDirectory (some dir) {} = .ok hash ∧
      hash.imports.entries.map Prod.fst = ["a.dll", "b.dll"] ∧
      (∀ names, ("b.dll", names) ∈ hash.imports.entries → names = ["f", "F", "f"]) ∧
      (hash.imports.entries.map fun l => l.2.length).sum = 4 := by
  intro dir
  have hentries : dir.entries {} = .ok (interleavedRequests.flatMap LibraryRequests.entries) := by
    decide +kernel
  obtain ⟨es, hes, -, -, hlists, -, hsum, -⟩ :=
    imports_gathered_by_library dir {} _ (ofDirectory_some.mpr ⟨_, hentries, rfl⟩)
  obtain rfl := Except.ok.inj (hentries.symm.trans hes)
  refine ⟨_, ofDirectory_some.mpr ⟨_, hentries, rfl⟩, ?_, ?_, ?_⟩
  · decide +kernel
  · intro names hmem
    rw [(hlists _ _ hmem).2]
    decide +kernel
  · rw [hsum]
    decide +kernel

end Hallmark.Proofs
