import Hallmark.Proofs.MachOParts
import Hallmark.Proofs.ResourceLimits
import Hallmark.Proofs.SortedCounts

/-!
# Recorded errors and missing results

The errors of a fingerprint mirror what is missing from it. A part that fails is recorded once, in a
fixed order, and leaves all fields that it would have filled empty; a field that is empty for no
other reason has its error.
-/

namespace Hallmark.Proofs

/-- The orders in which the structure of a container can record its failures. -/
def failureOrders : (kind : ContainerKind) → (symbols : Bool) → List (List HashComponent)
  | .pe, _ => [[.container], [.imphash, .resources]]
  | .elf, true => [[.container], [.symhash, .telfhash]]
  | .machO, true | .machOFat, true => [[.container]]
  | _, _ => [[]]

section File
variable {data : Bytes} {config : Config} {collaborators : Collaborators} {c : HashComponent}

/-! ## PE images -/

section Pe
variable {inputs : Pe.Inputs}

lemma importPart_failed :
    Failed c (PeFingerprint.importPart inputs config).2 ↔ .imphash = c ∧ config.hashes.imphash ∧
      ∃ e, Pe.ImportHash.ofDirectory inputs.imports config.parse = .error e := by
  unfold PeFingerprint.importPart
  by_cases h : config.hashes.imphash
  · simp [h, attempt_failed]
  · simp [h, not_failed_nil]

lemma importPart_eq_none :
    (PeFingerprint.importPart inputs config).1 = none ↔
      config.hashes.imphash = false ∨ Failed .imphash (PeFingerprint.importPart inputs config).2 := by
  unfold PeFingerprint.importPart
  by_cases h : config.hashes.imphash
  · simp [h, attempt_failed, attempt_eq_none]
  · simp [h]

lemma importPart_sublist :
    ((PeFingerprint.importPart inputs config).2.map HashError.component).Sublist [.imphash] := by
  unfold PeFingerprint.importPart
  by_cases h : config.hashes.imphash
  · simpa [h] using attempt_sublist
  · simp [h]

lemma resourcePart_failed :
    Failed c (PeFingerprint.resourcePart inputs config).2 ↔ .resources = c ∧
      config.hashes.resources ∧ ∃ tree, inputs.resources = some tree ∧
        ∃ e, Pe.ResourceTree.leaves tree config.parse = .error e := by
  unfold PeFingerprint.resourcePart
  cases htree : inputs.resources with
  | none => simp [not_failed_nil]
  | some tree =>
    by_cases h : config.hashes.resources
    · simp [h, attempt_failed]
    · simp [h, not_failed_nil]

lemma resourcePart_eq_some {leaves : List Pe.ResourceLeaf} :
    (PeFingerprint.resourcePart inputs config).1 = some leaves ↔ config.hashes.resources ∧
      ∃ tree, inputs.resources = some tree ∧
        Pe.ResourceTree.leaves tree config.parse = .ok leaves := by
  unfold PeFingerprint.resourcePart
  cases htree : inputs.resources with
  | none => simp
  | some tree =>
    by_cases h : config.hashes.resources
    · simp [h, attempt_eq_some]
    · simp [h]

lemma resourcePart_sublist :
    ((PeFingerprint.resourcePart inputs config).2.map HashError.component).Sublist
      [.resources] := by
  unfold PeFingerprint.resourcePart
  cases inputs.resources with
  | none => simp
  | some tree =>
    by_cases h : config.hashes.resources
    · simpa [h] using attempt_sublist
    · simp [h]

lemma resourcePart_eq_none_of_failed
    (h : Failed .resources (PeFingerprint.resourcePart inputs config).2) :
    (PeFingerprint.resourcePart inputs config).1 = none := by
  obtain ⟨-, -, tree, htree, e, hwalk⟩ := resourcePart_failed.mp h
  refine Option.eq_none_iff_forall_ne_some.mpr fun leaves hsome => ?_
  obtain ⟨-, tree', htree', hleaves⟩ := resourcePart_eq_some.mp hsome
  rw [htree] at htree'
  cases htree'
  rw [hwalk] at hleaves
  cases hleaves

/-- There are never more leaves than a count can hold. -/
lemma length_resourcePart_lt (inputs : Pe.Inputs) (config : Config) :
    ((PeFingerprint.resourcePart inputs config).1.getD []).length < 2 ^ 64 := by
  cases hpart : (PeFingerprint.resourcePart inputs config).1 with
  | none => simp
  | some leaves =>
    obtain ⟨-, tree, -, hleaves⟩ := resourcePart_eq_some.mp hpart
    exact Nat.lt_of_le_of_lt (fits_of_leaves hleaves).leaves config.parse.maxResources.toNat_lt

lemma imphash_ofInputs :
    (PeFingerprint.ofInputs inputs config).1.imphash =
      (PeFingerprint.importPart inputs config).1.map Pe.ImportHash.imphash := rfl

lemma imports_ofInputs :
    (PeFingerprint.ofInputs inputs config).1.imports =
      ((PeFingerprint.importPart inputs config).1.map Pe.ImportHash.imports).getD .empty := rfl

lemma resources_ofInputs :
    (PeFingerprint.ofInputs inputs config).1.resources =
      (PeFingerprint.resourcePart inputs config).1.getD [] := rfl

lemma ofInputs_failed :
    Failed c (PeFingerprint.ofInputs inputs config).2 ↔
      Failed c (PeFingerprint.importPart inputs config).2 ∨
        Failed c (PeFingerprint.resourcePart inputs config).2 :=
  failed_append

lemma ofInputs_failed_imphash :
    Failed .imphash (PeFingerprint.ofInputs inputs config).2 ↔
      Failed .imphash (PeFingerprint.importPart inputs config).2 := by
  have hother : ¬Failed .imphash (PeFingerprint.resourcePart inputs config).2 := by
    simp [resourcePart_failed]
  rw [ofInputs_failed, or_iff_left hother]

lemma ofInputs_failed_resources :
    Failed .resources (PeFingerprint.ofInputs inputs config).2 ↔
      Failed .resources (PeFingerprint.resourcePart inputs config).2 := by
  have hother : ¬Failed .resources (PeFingerprint.importPart inputs config).2 := by
    simp [importPart_failed]
  rw [ofInputs_failed, or_iff_right hother]

lemma ofInputs_sublist :
    ((PeFingerprint.ofInputs inputs config).2.map HashError.component).Sublist
      [.imphash, .resources] := by
  rw [PeFingerprint.ofInputs, List.map_append]
  exact importPart_sublist.append resourcePart_sublist

lemma ofInputs_without_imphash :
    (PeFingerprint.ofInputs inputs config).1.imphash = none ↔ config.hashes.imphash = false ∨
      Failed .imphash (PeFingerprint.ofInputs inputs config).2 := by
  rw [imphash_ofInputs, Option.map_eq_none_iff, importPart_eq_none, ofInputs_failed_imphash]

lemma ofInputs_without_imports (h : Failed .imphash (PeFingerprint.ofInputs inputs config).2) :
    (PeFingerprint.ofInputs inputs config).1.imports = .empty := by
  have hnone := importPart_eq_none.mpr (.inr (ofInputs_failed_imphash.mp h))
  rw [imports_ofInputs, hnone]
  rfl

lemma ofInputs_without_resources
    (h : Failed .resources (PeFingerprint.ofInputs inputs config).2) :
    let pe := (PeFingerprint.ofInputs inputs config).1
    pe.resources = [] ∧ pe.resourcesByType = .empty ∧ pe.resourcesByLanguage = .empty ∧
      pe.versionInfo = [] := by
  have hnone := resourcePart_eq_none_of_failed (ofInputs_failed_resources.mp h)
  have hleaves : (PeFingerprint.resourcePart inputs config).1.getD [] = [] := by
    rw [hnone]
    rfl
  simp only [PeFingerprint.ofInputs, hleaves]
  exact ⟨trivial, rfl, rfl, rfl⟩

lemma ofInputs_counts :
    let pe := (PeFingerprint.ofInputs inputs config).1
    Counts pe.resourcesByType (pe.resources.map Pe.ResourceLeaf.typeLabel) ∧
      Counts pe.resourcesByLanguage (pe.resources.map Pe.ResourceLeaf.language) := by
  have hlength := length_resourcePart_lt inputs config
  simp only [PeFingerprint.ofInputs]
  generalize (PeFingerprint.resourcePart inputs config).1.getD [] = leaves at hlength
  constructor
  · rw [← List.foldl_map]
    exact counts_foldl_count (by rwa [List.length_map])
  · rw [← List.foldl_map]
    exact counts_foldl_count (by rwa [List.length_map])

end Pe

/-! ## ELF images -/

section Elf
variable {tables : SymbolTables}

lemma similarityPart_failed :
    Failed c (ElfFingerprint.similarityPart tables collaborators).2 ↔ .telfhash = c ∧
      ∃ similarity, collaborators.similarity = some similarity ∧
        ∃ e, tables.telfhash collaborators.recovery similarity = .error e := by
  unfold ElfFingerprint.similarityPart
  cases h : collaborators.similarity with
  | none => simp [not_failed_nil]
  | some similarity => simp [attempt_failed]

lemma similarityPart_eq_none :
    (ElfFingerprint.similarityPart tables collaborators).1 = none ↔
      collaborators.similarity = none ∨
        Failed .telfhash (ElfFingerprint.similarityPart tables collaborators).2 := by
  unfold ElfFingerprint.similarityPart
  cases h : collaborators.similarity with
  | none => simp
  | some similarity => simp [attempt_failed, attempt_eq_none]

lemma similarityPart_sublist :
    ((ElfFingerprint.similarityPart tables collaborators).2.map HashError.component).Sublist
      [.telfhash] := by
  unfold ElfFingerprint.similarityPart
  cases collaborators.similarity with
  | none => simp
  | some similarity => exact attempt_sublist

end Elf

/-! ## Mirrors -/

structure FuzzyMirror (data : Bytes) (config : Config) (digest : Option String)
    (errors : List HashError) : Prop where
  failed : Failed .ssdeep errors ↔ config.hashes.ssdeep ∧ ∃ e, FuzzyHash.ofBytes data = .error e
  present : ∀ text, digest = some text ↔ config.hashes.ssdeep ∧
    ∃ found, FuzzyHash.ofBytes data = .ok (some found) ∧ found.text = text

/-- What the errors say about the fields of a PE image that can be read. -/
structure PePartsMirror (inputs : Pe.Inputs) (config : Config) (pe : PeFingerprint)
    (errors : List HashError) : Prop where
  withoutImphash : pe.imphash = none ↔ config.hashes.imphash = false ∨ Failed .imphash errors
  withoutImports : Failed .imphash errors → pe.imports = .empty
  withoutResources : Failed .resources errors → pe.resources = [] ∧ pe.resourcesByType = .empty ∧
    pe.resourcesByLanguage = .empty ∧ pe.versionInfo = []
  withResources : ∀ tree leaves, config.hashes.resources → inputs.resources = some tree →
    Pe.ResourceTree.leaves tree config.parse = .ok leaves → pe.resources = leaves
  byType : Counts pe.resourcesByType (pe.resources.map Pe.ResourceLeaf.typeLabel)
  byLanguage : Counts pe.resourcesByLanguage (pe.resources.map Pe.ResourceLeaf.language)

structure PeMirror (data : Bytes) (config : Config) (pe : Option PeFingerprint)
    (errors : List HashError) : Prop where
  absent : pe = none ↔ Failed .container errors
  container : Failed .container errors ↔ ∃ e, Pe.Inputs.ofBytes data = .error e
  imphash : Failed .imphash errors ↔ config.hashes.imphash ∧ ∃ inputs,
    Pe.Inputs.ofBytes data = .ok inputs ∧
      ∃ e, Pe.ImportHash.ofDirectory inputs.imports config.parse = .error e
  resources : Failed .resources errors ↔ config.hashes.resources ∧ ∃ inputs tree,
    Pe.Inputs.ofBytes data = .ok inputs ∧ inputs.resources = some tree ∧
      ∃ e, Pe.ResourceTree.leaves tree config.parse = .error e
  parts : ∀ found, pe = some found → ∃ inputs, Pe.Inputs.ofBytes data = .ok inputs ∧
    PePartsMirror inputs config found errors

structure ElfMirror (data : Bytes) (collaborators : Collaborators) (elf : ElfFingerprint)
    (errors : List HashError) : Prop where
  withoutSymhash : elf.symhash = none ↔ Failed .container errors ∨ Failed .symhash errors
  withoutTelfhash : elf.telfhash = none ↔ collaborators.similarity = none ∨
    Failed .container errors ∨ Failed .telfhash errors
  container : Failed .container errors ↔ ∃ fault, Elf.symbolTables data = .error fault
  symhash : Failed .symhash errors ↔ ∃ tables, Elf.symbolTables data = .ok tables ∧
    ∃ e, tables.symhash collaborators.recovery = .error e
  telfhash : Failed .telfhash errors ↔ ∃ tables similarity,
    Elf.symbolTables data = .ok tables ∧ collaborators.similarity = some similarity ∧
      ∃ e, tables.telfhash collaborators.recovery similarity = .error e

structure MachOMirror (data : Bytes) (macho : MachOFingerprint) (errors : List HashError) :
    Prop where
  withoutImage : macho.image = none ↔
    Failed .container errors ∨ MachO.imageSummary data = .ok none
  container : Failed .container errors ↔ (∃ fault, MachO.undefinedSymbols data = .error fault) ∨
    ∃ fault, MachO.imageSummary data = .error fault

lemma peParts_mirror {inputs : Pe.Inputs} :
    PePartsMirror inputs config (PeFingerprint.ofInputs inputs config).1
      ((FileFingerprint.fuzzyPart data config).2 ++ (PeFingerprint.ofInputs inputs config).2) := by
  refine ⟨?_, ?_, ?_, ?_, ofInputs_counts.1, ofInputs_counts.2⟩
  · rw [failed_behind_fuzzy (by decide)]
    exact ofInputs_without_imphash
  · rw [failed_behind_fuzzy (by decide)]
    exact ofInputs_without_imports
  · rw [failed_behind_fuzzy (by decide)]
    exact ofInputs_without_resources
  · intro tree leaves hon htree hleaves
    rw [resources_ofInputs, resourcePart_eq_some.mpr ⟨hon, tree, htree, hleaves⟩]
    rfl

lemma pe_mirror :
    PeMirror data config (PeFingerprint.ofBytes data config).1
      ((FileFingerprint.fuzzyPart data config).2 ++ (PeFingerprint.ofBytes data config).2) := by
  unfold PeFingerprint.ofBytes
  cases hinputs : Pe.Inputs.ofBytes data with
  | error e =>
    constructor <;> simp [hinputs, failed_append, fuzzyPart_failed, failed_singleton]
  | ok inputs =>
    have hnone : ¬Failed .container (PeFingerprint.ofInputs inputs config).2 := by
      intro h
      have hmem := h.mem ofInputs_sublist
      simp at hmem
    refine ⟨?_, ?_, ?_, ?_, ?_⟩
    · simp [failed_behind_fuzzy, hnone]
    · simp [failed_behind_fuzzy, hinputs, hnone]
    · simp [failed_behind_fuzzy, hinputs, ofInputs_failed_imphash, importPart_failed]
    · simp [failed_behind_fuzzy, hinputs, ofInputs_failed_resources, resourcePart_failed]
    · intro found h
      cases h
      exact ⟨inputs, hinputs, peParts_mirror⟩

lemma elf_mirror :
    ElfMirror data collaborators (ElfFingerprint.ofBytes data collaborators).1
      ((FileFingerprint.fuzzyPart data config).2 ++
        (ElfFingerprint.ofBytes data collaborators).2) := by
  unfold ElfFingerprint.ofBytes
  cases htables : Elf.symbolTables data with
  | error fault =>
    constructor <;> simp [htables, failed_append, fuzzyPart_failed, failed_singleton]
  | ok tables =>
    constructor <;>
      simp [htables, failed_append, fuzzyPart_failed, attempt_failed, attempt_eq_none,
        similarityPart_failed, similarityPart_eq_none]

lemma macho_mirror :
    MachOMirror data (MachOFingerprint.ofBytes data).1
      ((FileFingerprint.fuzzyPart data config).2 ++ (MachOFingerprint.ofBytes data).2) := by
  refine ⟨?_, ?_⟩
  · rw [failed_behind_fuzzy (by decide)]
    cases hsymbols : MachO.undefinedSymbols data with
    | error fault => simp [parts_of_symbols_error hsymbols, failed_singleton]
    | ok symbols =>
      rw [parts_of_symbols hsymbols]
      cases himage : MachO.imageSummary data with
      | error fault => simp [imagePart_of_error himage, failed_singleton]
      | ok image => simp [imagePart_of_ok himage, not_failed_nil]
  · rw [failed_behind_fuzzy (by decide)]
    exact parts_errors

/-! ## All errors of a file -/

lemma peOfBytes_sublist :
    ∃ order ∈ failureOrders .pe config.hashes.symbols,
      ((PeFingerprint.ofBytes data config).2.map HashError.component).Sublist order := by
  unfold PeFingerprint.ofBytes
  cases Pe.Inputs.ofBytes data with
  | error e => exact ⟨[.container], by simp [failureOrders], by simp⟩
  | ok inputs => exact ⟨[.imphash, .resources], by simp [failureOrders], ofInputs_sublist⟩

lemma elfOfBytes_sublist :
    ∃ order ∈ failureOrders .elf true,
      ((ElfFingerprint.ofBytes data collaborators).2.map HashError.component).Sublist order := by
  unfold ElfFingerprint.ofBytes
  cases Elf.symbolTables data with
  | error fault => exact ⟨[.container], by simp [failureOrders], by simp⟩
  | ok tables =>
    refine ⟨[.symhash, .telfhash], by simp [failureOrders], ?_⟩
    simp only [List.map_append]
    exact attempt_sublist.append similarityPart_sublist

lemma machoOfBytes_sublist :
    ((MachOFingerprint.ofBytes data).2.map HashError.component).Sublist [.container] := by
  cases h : MachO.undefinedSymbols data with
  | error fault => simp [parts_of_symbols_error h]
  | ok symbols =>
    rw [parts_of_symbols h]
    change ((MachOFingerprint.imagePart data).2.map HashError.component).Sublist [.container]
    unfold MachOFingerprint.imagePart
    exact attempt_sublist

lemma structurePart_sublist (data : Bytes) (config : Config) (collaborators : Collaborators) :
    ∃ order ∈ failureOrders (ContainerKind.detect data) config.hashes.symbols,
      ((FileFingerprint.structurePart data config collaborators).2.2.2.map
        HashError.component).Sublist order := by
  unfold FileFingerprint.structurePart
  cases ContainerKind.detect data with
  | pe => exact peOfBytes_sublist
  | elf =>
    cases config.hashes.symbols with
    | true => exact elfOfBytes_sublist
    | false => exact ⟨[], by simp [failureOrders], by simp⟩
  | machO =>
    cases config.hashes.symbols with
    | true => exact ⟨[.container], by simp [failureOrders], machoOfBytes_sublist⟩
    | false => exact ⟨[], by simp [failureOrders], by simp⟩
  | machOFat =>
    cases config.hashes.symbols with
    | true => exact ⟨[.container], by simp [failureOrders], machoOfBytes_sublist⟩
    | false => exact ⟨[], by simp [failureOrders], by simp⟩
  | other => exact ⟨[], by simp [failureOrders], by simp⟩

lemma failureOrders_nodup (kind : ContainerKind) (symbols : Bool) :
    ∀ order ∈ failureOrders kind symbols, (.ssdeep :: order).Nodup := by
  cases kind <;> cases symbols <;> decide

lemma errors_ofBytes :
    (FileFingerprint.ofBytes data config collaborators).errors =
      (FileFingerprint.fuzzyPart data config).2 ++
        (FileFingerprint.structurePart data config collaborators).2.2.2 := rfl

/-- The errors of a file are those of the fuzzy digest and then those of its structure. -/
lemma errors_sublist (data : Bytes) (config : Config) (collaborators : Collaborators) :
    ∃ order ∈ failureOrders (ContainerKind.detect data) config.hashes.symbols,
      ((FileFingerprint.ofBytes data config collaborators).errors.map
        HashError.component).Sublist (.ssdeep :: order) := by
  obtain ⟨order, horder, hstructure⟩ := structurePart_sublist data config collaborators
  refine ⟨order, horder, ?_⟩
  rw [errors_ofBytes, List.map_append]
  exact fuzzyPart_sublist.append hstructure

lemma failed_ssdeep :
    Failed .ssdeep (FileFingerprint.ofBytes data config collaborators).errors ↔
      config.hashes.ssdeep ∧ ∃ e, FuzzyHash.ofBytes data = .error e := by
  obtain ⟨order, horder, hstructure⟩ := structurePart_sublist data config collaborators
  have hother : ¬Failed .ssdeep
      (FileFingerprint.structurePart data config collaborators).2.2.2 := by
    intro h
    have hnodup := failureOrders_nodup _ _ order horder
    exact (List.nodup_cons.mp hnodup).1 (h.mem hstructure)
  rw [errors_ofBytes, failed_append, or_iff_left hother, fuzzyPart_failed]
  simp

/-! ## The whole -/

lemma fuzzy_mirror :
    FuzzyMirror data config (FileFingerprint.fuzzyPart data config).1
      (FileFingerprint.ofBytes data config collaborators).errors :=
  ⟨failed_ssdeep, fun _ => fuzzyPart_eq_some⟩

/-- Every failure of a fingerprint is recorded once and in a fixed order, and what its errors say is
exactly what is missing from it. -/
theorem errors_mirror_results (data : Bytes) (config : Config) (collaborators : Collaborators) :
    let fp := FileFingerprint.ofBytes data config collaborators
    (fp.errors.map HashError.component).Nodup ∧
      (∃ order ∈ failureOrders fp.container config.hashes.symbols,
        (fp.errors.map HashError.component).Sublist (.ssdeep :: order)) ∧
      FuzzyMirror data config fp.ssdeep fp.errors ∧
      (fp.container = .pe → PeMirror data config fp.pe fp.errors) ∧
      (fp.container = .elf → config.hashes.symbols → ∃ elf, fp.elf = some elf ∧
        ElfMirror data collaborators elf fp.errors) ∧
      (fp.container.isMachO → config.hashes.symbols → ∃ macho, fp.macho = some macho ∧
        MachOMirror data macho fp.errors) := by
  intro fp
  obtain ⟨order, horder, hsublist⟩ := errors_sublist data config collaborators
  have hnodup := failureOrders_nodup _ _ order horder
  refine ⟨hnodup.sublist hsublist, ⟨order, horder, hsublist⟩, fuzzy_mirror, ?_, ?_, ?_⟩
  · intro hkind
    have hstructure : FileFingerprint.structurePart data config collaborators =
        ((PeFingerprint.ofBytes data config).1, none, none,
          (PeFingerprint.ofBytes data config).2) := by
      unfold FileFingerprint.structurePart
      rw [show ContainerKind.detect data = .pe from hkind]
    obtain ⟨hpe, -, -, herrors⟩ := fingerprint_of_structure hstructure
    rw [hpe, herrors]
    exact pe_mirror
  · intro hkind hsymbols
    have hstructure : FileFingerprint.structurePart data config collaborators =
        (none, some (ElfFingerprint.ofBytes data collaborators).1, none,
          (ElfFingerprint.ofBytes data collaborators).2) := by
      unfold FileFingerprint.structurePart
      rw [show ContainerKind.detect data = .elf from hkind]
      exact if_pos hsymbols
    obtain ⟨-, helf, -, herrors⟩ := fingerprint_of_structure hstructure
    refine ⟨_, helf, ?_⟩
    rw [herrors]
    exact elf_mirror
  · intro hkind hsymbols
    obtain ⟨-, -, hmacho, herrors⟩ :=
      fingerprint_of_structure (structurePart_of_machO config collaborators hkind hsymbols)
    refine ⟨_, hmacho, ?_⟩
    rw [herrors]
    exact macho_mirror

end File

/-- An image without sections, so without symbols. -/
def strippedImage : Bytes := #[0x7f, 0x45, 0x4c, 0x46, 2, 1, 1] ++ Array.replicate 57 0

/-- Where there are no symbols and the call targets cannot be found, the symbol hash is missing for
an error of its own, and none of the container. -/
theorem errors_mirror_strippedImage :
    let fp := FileFingerprint.ofBytes strippedImage {} ⟨none, .error ⟨"recovery failed"⟩⟩
    fp.container = .elf ∧ ∃ elf, fp.elf = some elf ∧ elf.symhash = none ∧ elf.telfhash = none ∧
      Failed .symhash fp.errors ∧ ¬Failed .container fp.errors ∧ ¬Failed .telfhash fp.errors := by
  intro fp
  have hkind : ContainerKind.detect strippedImage = .elf := by decide +kernel
  have htables : Elf.symbolTables strippedImage = .ok ⟨[], []⟩ := by decide +kernel
  obtain ⟨-, -, -, -, hmirror, -⟩ := errors_mirror_results strippedImage {}
    ⟨none, .error ⟨"recovery failed"⟩⟩
  obtain ⟨elf, helf, hmatch⟩ := hmirror hkind rfl
  have hsymhash : Failed .symhash fp.errors := hmatch.symhash.mpr ⟨_, htables, _, rfl⟩
  refine ⟨hkind, elf, helf, hmatch.withoutSymhash.mpr (.inr hsymhash),
    hmatch.withoutTelfhash.mpr (.inl rfl), hsymhash, ?_, ?_⟩
  · rw [hmatch.container, htables]
    simp
  · rw [hmatch.telfhash]
    simp

end Hallmark.Proofs
