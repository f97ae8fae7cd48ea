import Hallmark.Proofs.RecordedErrors

/-!
# Switching hashes off

A configuration switches four hashes of a fingerprint on and off, and limits some of them. Each of
them fills fields of its own and records failures of its own: what is left of a fingerprint without
one of them depends neither on its settings nor on its input.
-/

namespace Hallmark.Proofs

/-- The hashes of a fingerprint that a configuration can switch off. -/
inductive Toggle where
  | ssdeep
  | imphash
  | resources
  | symbols
  deriving DecidableEq

/-- The errors of all but some components. -/
def dropErrors (dropped : List HashComponent) (errors : List HashError) : List HashError :=
  errors.filter fun e => e.component ∉ dropped

namespace Toggle

def switchOff : Toggle → Config → Config
  | ssdeep, config => { config with hashes.ssdeep := false }
  | imphash, config => { config with hashes.imphash := false }
  | resources, config => { config with hashes.resources := false }
  | symbols, config => { config with hashes.symbols := false }

/-- A configuration without the settings of one hash, its limits included. -/
def forget : Toggle → Config → Config
  | ssdeep, config => { config with hashes.ssdeep := false }
  | imphash, config => { config with hashes.imphash := false, parse.maxImports := 0 }
  | resources, config =>
    { config with
      hashes.resources := false
      parse := { maxImports := config.parse.maxImports } }
  | symbols, config => { config with hashes.symbols := false }

/-- The components that a hash records its failures under, in a file of the given kind. Only where
there are symbols to hash, the file is taken apart for them alone. -/
def records (kind : ContainerKind) : Toggle → List HashComponent
  | ssdeep => [.ssdeep]
  | imphash => [.imphash]
  | resources => [.resources]
  | symbols => if kind = .elf ∨ kind.isMachO then [.container, .symhash, .telfhash] else []

def clearPe : Toggle → PeFingerprint → PeFingerprint
  | imphash, pe => { pe with imphash := none, imports := .empty }
  | resources, pe =>
    { pe with
      resources := []
      resourcesByType := .empty
      resourcesByLanguage := .empty
      versionInfo := [] }
  | _, pe => pe

/-- A fingerprint without what one hash gave: its fields are empty and its errors are gone. -/
def clear (t : Toggle) (fp : FileFingerprint) : FileFingerprint :=
  { fp with
    ssdeep := if t = ssdeep then none else fp.ssdeep
    pe := fp.pe.map t.clearPe
    elf := if t = symbols then none else fp.elf
    macho := if t = symbols then none else fp.macho
    errors := dropErrors (t.records fp.container) fp.errors }

/-- The same for an image and the errors that its hashes recorded. -/
def clearPart (t : Toggle) (r : PeFingerprint × List HashError) : PeFingerprint × List HashError :=
  (t.clearPe r.1, dropErrors (t.records .pe) r.2)

end Toggle

/-! ## Errors -/

section Errors
variable {dropped order : List HashComponent} {errors : List HashError}

lemma dropErrors_append (dropped : List HashComponent) (errors more : List HashError) :
    dropErrors dropped (errors ++ more) = dropErrors dropped errors ++ dropErrors dropped more :=
  List.filter_append ..

lemma dropErrors_own (h : (errors.map HashError.component).Sublist order)
    (hown : ∀ c ∈ order, c ∈ dropped) : dropErrors dropped errors = [] := by
  rw [dropErrors, List.filter_eq_nil_iff]
  intro e he
  simpa using hown _ (h.subset (List.mem_map_of_mem he))

lemma dropErrors_other (h : (errors.map HashError.component).Sublist order)
    (hother : ∀ c ∈ order, c ∉ dropped) : dropErrors dropped errors = errors := by
  rw [dropErrors, List.filter_eq_self]
  intro e he
  simpa using hother _ (h.subset (List.mem_map_of_mem he))

end Errors

/-! ## What the parts read of a configuration -/

section Parts
variable {config other : Config} {inputs changed : Pe.Inputs}

lemma importPart_congr (hinput : inputs.imports = changed.imports)
    (hon : config.hashes.imphash = other.hashes.imphash)
    (hlimit : config.parse.maxImports = other.parse.maxImports) :
    PeFingerprint.importPart inputs config = PeFingerprint.importPart changed other := by
  have hentries (dir : Pe.ImportDirectory) : dir.entries config.parse = dir.entries other.parse := by
    unfold Pe.ImportDirectory.entries
    rw [hlimit]
  unfold PeFingerprint.importPart Pe.ImportHash.ofDirectory
  simp only [hinput, hon, hentries]

/-- The walk over resources does not know the limit on imports. -/
lemma walk_maxImports (tree : Pe.ResourceSection) (options : Pe.Options) (limit : UInt64)
    (below offset : Nat) (label : Option String) :
    Pe.ResourceTree.walk tree { options with maxImports := limit } below offset label =
      Pe.ResourceTree.walk tree options below offset label := by
  induction below generalizing offset label with
  | zero => rfl
  | succ below ih =>
    simp only [Pe.ResourceTree.walk, ih]
    rfl

lemma resourcePart_congr (hinput : inputs.resources = changed.resources)
    (hon : config.hashes.resources = other.hashes.resources)
    (hlimits : { config.parse with maxImports := 0 } = { other.parse with maxImports := 0 }) :
    PeFingerprint.resourcePart inputs config = PeFingerprint.resourcePart changed other := by
  have hleaves (tree : Pe.ResourceSection) :
      Pe.ResourceTree.leaves tree config.parse = Pe.ResourceTree.leaves tree other.parse := by
    unfold Pe.ResourceTree.leaves
    rw [← walk_maxImports tree config.parse 0, ← walk_maxImports tree other.parse 0, hlimits]
  unfold PeFingerprint.resourcePart
  simp only [hinput, hon, hleaves]

end Parts

namespace Toggle

/-- An image without the input of one hash. -/
def forgetInput : Toggle → Pe.Inputs → Pe.Inputs
  | imphash, inputs => { inputs with imports := none }
  | resources, inputs => { inputs with resources := none }
  | _, inputs => inputs

def clearFuzzy (t : Toggle) (kind : ContainerKind) (r : Option String × List HashError) :
    Option String × List HashError :=
  (if t = ssdeep then none else r.1, dropErrors (t.records kind) r.2)

def clearStructure (t : Toggle) (kind : ContainerKind)
    (r : Option PeFingerprint × Option ElfFingerprint × Option MachOFingerprint × List HashError) :
    Option PeFingerprint × Option ElfFingerprint × Option MachOFingerprint × List HashError :=
  (r.1.map t.clearPe, if t = symbols then none else r.2.1, if t = symbols then none else r.2.2.1,
    dropErrors (t.records kind) r.2.2.2)

section Forget
variable (t : Toggle) (data : Bytes) (config : Config) (collaborators : Collaborators)

lemma clearFuzzy_fuzzyPart (kind : ContainerKind) :
    t.clearFuzzy kind (FileFingerprint.fuzzyPart data config) =
      FileFingerprint.fuzzyPart data (t.forget config) := by
  have hkept (hother : .ssdeep ∉ t.records kind) :
      dropErrors (t.records kind) (FileFingerprint.fuzzyPart data config).2 =
        (FileFingerprint.fuzzyPart data config).2 := by
    apply dropErrors_other fuzzyPart_sublist
    simpa using hother
  cases t with
  | ssdeep =>
    have hown : dropErrors [.ssdeep] (FileFingerprint.fuzzyPart data config).2 = [] :=
      dropErrors_own fuzzyPart_sublist (by decide)
    exact Prod.ext rfl hown
  | imphash | resources | symbols => exact Prod.ext rfl (hkept (by cases kind <;> decide))

lemma resourcePart_off (inputs : Pe.Inputs) (h : config.hashes.resources = false) :
    PeFingerprint.resourcePart inputs config = (none, []) := by
  unfold PeFingerprint.resourcePart
  cases inputs.resources <;> simp [h]

/-- The hashes of an image without one of them are those that are taken with that hash switched
off. -/
lemma clearPart_ofInputs (inputs : Pe.Inputs) :
    t.clearPart (PeFingerprint.ofInputs inputs config) =
      PeFingerprint.ofInputs inputs (t.forget config) := by
  cases t with
  | ssdeep | symbols => exact Prod.ext rfl (dropErrors_other ofInputs_sublist (by decide))
  | imphash =>
    have hother : PeFingerprint.resourcePart inputs (imphash.forget config) =
        PeFingerprint.resourcePart inputs config :=
      resourcePart_congr rfl rfl rfl
    have hown : dropErrors [.imphash] (PeFingerprint.importPart inputs config).2 = [] :=
      dropErrors_own importPart_sublist (by decide)
    have hkept : dropErrors [.imphash] (PeFingerprint.resourcePart inputs config).2 =
        (PeFingerprint.resourcePart inputs config).2 :=
      dropErrors_other resourcePart_sublist (by decide)
    simp only [clearPart, clearPe, records, PeFingerprint.ofInputs, dropErrors_append, hown, hkept,
      hother]
    rfl
  | resources =>
    have hother : PeFingerprint.importPart inputs (resources.forget config) =
        PeFingerprint.importPart inputs config :=
      importPart_congr rfl rfl rfl
    have hoff : PeFingerprint.resourcePart inputs (resources.forget config) = (none, []) :=
      resourcePart_off _ inputs rfl
    have hown : dropErrors [.resources] (PeFingerprint.resourcePart inputs config).2 = [] :=
      dropErrors_own resourcePart_sublist (by decide)
    have hkept : dropErrors [.resources] (PeFingerprint.importPart inputs config).2 =
        (PeFingerprint.importPart inputs config).2 :=
      dropErrors_other importPart_sublist (by decide)
    simp only [clearPart, clearPe, records, PeFingerprint.ofInputs, dropErrors_append, hown, hkept,
      hother, hoff]
    rfl

/-- A hash that is switched off does not look at its input. -/
lemma ofInputs_forgetInput (inputs : Pe.Inputs) :
    PeFingerprint.ofInputs (t.forgetInput inputs) (t.forget config) =
      PeFingerprint.ofInputs inputs (t.forget config) := by
  cases t with
  | ssdeep | imphash | symbols => rfl
  | resources =>
    have hoff (inputs) : PeFingerprint.resourcePart inputs (resources.forget config) = (none, []) :=
      resourcePart_off _ inputs rfl
    simp only [PeFingerprint.ofInputs, hoff]
    rfl

lemma clear_peOfBytes :
    ((PeFingerprint.ofBytes data config).1.map t.clearPe,
        dropErrors (t.records .pe) (PeFingerprint.ofBytes data config).2) =
      PeFingerprint.ofBytes data (t.forget config) := by
  unfold PeFingerprint.ofBytes
  cases Pe.Inputs.ofBytes data with
  | error e => cases t <;> rfl
  | ok inputs =>
    have h := clearPart_ofInputs t config inputs
    simp only [← h, clearPart, Option.map_some]

variable {data} in
/-- Apart from PE images, all that the structure of a file reads of a configuration is whether
symbols are asked for. -/
lemma structurePart_not_pe (hkind : ContainerKind.detect data ≠ .pe) :
    ∃ elf macho errors, ∀ config,
      FileFingerprint.structurePart data config collaborators =
        if config.hashes.symbols then (none, elf, macho, errors) else (none, none, none, []) := by
  unfold FileFingerprint.structurePart
  cases hcase : ContainerKind.detect data with
  | pe => exact absurd hcase hkind
  | elf =>
    obtain ⟨elf, errors⟩ := ElfFingerprint.ofBytes data collaborators
    exact ⟨some elf, none, errors, fun _ => rfl⟩
  | machO | machOFat =>
    obtain ⟨macho, errors⟩ := MachOFingerprint.ofBytes data
    exact ⟨none, some macho, errors, fun _ => rfl⟩
  | other => exact ⟨none, none, [], fun _ => (ite_self _).symm⟩

lemma failureOrders_symbols {kind : ContainerKind} (hkind : kind ≠ .pe) (symbols : Bool) :
    ∀ order ∈ failureOrders kind symbols, ∀ c ∈ order, c ∈ Toggle.symbols.records kind := by
  cases kind with
  | pe => exact absurd rfl hkind
  | elf | machO | machOFat | other => cases symbols <;> decide

variable {t} in
lemma failureOrders_other {kind : ContainerKind} (hkind : kind ≠ .pe) (ht : t ≠ symbols)
    (on : Bool) : ∀ order ∈ failureOrders kind on, ∀ c ∈ order, c ∉ t.records kind := by
  cases kind with
  | pe => exact absurd rfl hkind
  | elf | machO | machOFat | other =>
    cases t with
    | symbols => exact absurd rfl ht
    | ssdeep | imphash | resources => cases on <;> decide

lemma symbols_forget :
    (t.forget config).hashes.symbols = (decide (t ≠ symbols) && config.hashes.symbols) := by
  cases t <;> rfl

lemma clearStructure_structurePart :
    t.clearStructure (ContainerKind.detect data)
        (FileFingerprint.structurePart data config collaborators) =
      FileFingerprint.structurePart data (t.forget config) collaborators := by
  by_cases hkind : ContainerKind.detect data = .pe
  · have h := clear_peOfBytes t data config
    simp only [FileFingerprint.structurePart, hkind, clearStructure, ← h, ite_self]
  · -- Here symbols are all that is hashed, so all errors belong to them, or none is dropped.
    obtain ⟨order, horder, hsublist⟩ := structurePart_sublist data config collaborators
    obtain ⟨elf, macho, errors, hall⟩ := structurePart_not_pe collaborators hkind
    rw [hall] at hsublist
    rw [hall, hall, symbols_forget]
    cases hon : config.hashes.symbols with
    | false => simp [clearStructure, dropErrors]
    | true =>
      rw [hon] at hsublist horder
      by_cases ht : t = symbols
      · subst ht
        have hown := dropErrors_own hsublist (failureOrders_symbols hkind _ order horder)
        simp only [ite_true] at hown
        simp [clearStructure, hown]
      · have hkept := dropErrors_other hsublist (failureOrders_other hkind ht _ order horder)
        simp only [ite_true] at hkept
        simp [clearStructure, ht, hkept]

/-- A fingerprint without one hash is the one that is taken with that hash switched off, whatever
its limits. -/
lemma clear_ofBytes :
    t.clear (FileFingerprint.ofBytes data config collaborators) =
      FileFingerprint.ofBytes data (t.forget config) collaborators := by
  have hfuzzy := clearFuzzy_fuzzyPart t data config (ContainerKind.detect data)
  have hstructure := clearStructure_structurePart t data config collaborators
  simp only [clear, FileFingerprint.ofBytes, ← hfuzzy, ← hstructure, clearFuzzy, clearStructure,
    dropErrors_append]

/-- The limits of a hash that is switched off are not looked at. -/
lemma ofInputs_switchOff (inputs : Pe.Inputs) :
    PeFingerprint.ofInputs inputs (t.switchOff config) =
      PeFingerprint.ofInputs inputs (t.forget config) := by
  cases t with
  | ssdeep | symbols => rfl
  | imphash =>
    have hother : PeFingerprint.resourcePart inputs (imphash.switchOff config) =
        PeFingerprint.resourcePart inputs (imphash.forget config) :=
      resourcePart_congr rfl rfl rfl
    simp only [PeFingerprint.ofInputs, hother]
    rfl
  | resources =>
    have hoff : PeFingerprint.resourcePart inputs (resources.switchOff config) = (none, []) :=
      resourcePart_off _ inputs rfl
    have hforgotten : PeFingerprint.resourcePart inputs (resources.forget config) = (none, []) :=
      resourcePart_off _ inputs rfl
    simp only [PeFingerprint.ofInputs, hoff, hforgotten]
    rfl

lemma ofBytes_switchOff :
    FileFingerprint.ofBytes data (t.switchOff config) collaborators =
      FileFingerprint.ofBytes data (t.forget config) collaborators := by
  simp only [FileFingerprint.ofBytes, FileFingerprint.structurePart, PeFingerprint.ofBytes,
    ofInputs_switchOff]
  cases t <;> rfl

end Forget

end Toggle

/-- Switching a hash off leaves its fields empty and its errors out, and all else as it is. The
limits of a hash, and for an image also its input, have an effect on nothing else either. -/
theorem toggles_do_not_interfere (data : Bytes) (config : Config) (collaborators : Collaborators) :
    let fingerprint := fun config => FileFingerprint.ofBytes data config collaborators
    (∀ t : Toggle, fingerprint (t.switchOff config) = t.clear (fingerprint config)) ∧
      (∀ maxImports,
        Toggle.imphash.clear (fingerprint { config with parse.maxImports := maxImports }) =
          Toggle.imphash.clear (fingerprint config)) ∧
      (∀ maxResources maxResourceEntries sniffResources,
        Toggle.resources.clear (fingerprint { config with
          parse.maxResources := maxResources
          parse.maxResourceEntries := maxResourceEntries
          parse.sniffResources := sniffResources }) =
          Toggle.resources.clear (fingerprint config)) ∧
      (∀ inputs imports,
        Toggle.imphash.clearPart
            (PeFingerprint.ofInputs { inputs with imports := imports } config) =
          Toggle.imphash.clearPart (PeFingerprint.ofInputs inputs config)) ∧
      (∀ inputs resources,
        Toggle.resources.clearPart
            (PeFingerprint.ofInputs { inputs with resources := resources } config) =
          Toggle.resources.clearPart (PeFingerprint.ofInputs inputs config)) := by
  intro fingerprint
  refine ⟨?_, ?_, ?_, ?_, ?_⟩
  · intro t
    exact (Toggle.ofBytes_switchOff t data config collaborators).trans
      (Toggle.clear_ofBytes t data config collaborators).symm
  · intro maxImports
    rw [Toggle.clear_ofBytes, Toggle.clear_ofBytes]
    rfl
  · intro maxResources maxResourceEntries sniffResources
    rw [Toggle.clear_ofBytes, Toggle.clear_ofBytes]
    rfl
  · intro inputs imports
    rw [Toggle.clearPart_ofInputs, Toggle.clearPart_ofInputs, ← Toggle.ofInputs_forgetInput,
      ← Toggle.ofInputs_forgetInput _ _ inputs]
    rfl
  · intro inputs resources
    rw [Toggle.clearPart_ofInputs, Toggle.clearPart_ofInputs, ← Toggle.ofInputs_forgetInput,
      ← Toggle.ofInputs_forgetInput _ _ inputs]
    rfl

end Hallmark.Proofs
