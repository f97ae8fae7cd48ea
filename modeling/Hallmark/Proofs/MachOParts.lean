import Hallmark.Proofs.FailedParts

/-!
# The parts of a Mach-O fingerprint

The symbol hash of a Mach-O file does not depend on the summary of its image, and a failure of
either is recorded. The summary does depend on the symbols: it is dropped when they cannot be read.
-/

namespace Hallmark.Proofs

section File
variable {data : Bytes}

/-! ## The image -/

lemma imagePart_of_ok {image : Option MachOImage} (h : MachO.imageSummary data = .ok image) :
    MachOFingerprint.imagePart data = (image, []) := by
  rw [MachOFingerprint.imagePart, h]
  rfl

lemma imagePart_of_error {fault : ImageFault} (h : MachO.imageSummary data = .error fault) :
    MachOFingerprint.imagePart data = (none, [⟨.container, (FormatError.ofFault fault).message⟩]) := by
  rw [MachOFingerprint.imagePart, h]
  rfl

lemma imagePart_errors :
    Failed .container (MachOFingerprint.imagePart data).2 ↔
      ∃ fault, MachO.imageSummary data = .error fault := by
  cases h : MachO.imageSummary data with
  | ok image => simp [imagePart_of_ok h, not_failed_nil]
  | error fault => simp [imagePart_of_error h, failed_singleton]

/-- A summary that can be taken although the symbols cannot be read is that of a single image. -/
lemma exists_image_of_symbols_error {fault : ImageFault} {image : Option MachOImage}
    (hsymbols : MachO.undefinedSymbols data = .error fault)
    (himage : MachO.imageSummary data = .ok image) : ∃ summary, image = some summary := by
  unfold MachO.undefinedSymbols at hsymbols
  unfold MachO.imageSummary at himage
  cases hcontent : MachO.Content.ofBytes data with
  | error fault' =>
    rw [hcontent] at himage
    cases himage
  | ok content =>
    rw [hcontent] at hsymbols himage
    cases content with
    | fat => cases hsymbols
    | thin thin =>
      cases hsummary : thin.summary data with
      | error fault' => simp [hsummary, bind, Except.bind] at himage
      | ok summary =>
        refine ⟨summary, ?_⟩
        simpa [hsummary, bind, Except.bind, pure, Except.pure, eq_comm] using himage

/-! ## The whole -/

lemma parts_of_symbols_error {fault : ImageFault}
    (h : MachO.undefinedSymbols data = .error fault) :
    MachOFingerprint.ofBytes data =
      (⟨false, "", none⟩, [⟨.container, (FormatError.ofFault fault).message⟩]) := by
  rw [MachOFingerprint.ofBytes, h]

lemma parts_of_symbols {symbols : UndefinedSymbols} (h : MachO.undefinedSymbols data = .ok symbols) :
    MachOFingerprint.ofBytes data =
      (⟨symbols.isFat, symbols.symhash, (MachOFingerprint.imagePart data).1⟩,
        (MachOFingerprint.imagePart data).2) := by
  rw [MachOFingerprint.ofBytes, h]

lemma parts_errors :
    Failed .container (MachOFingerprint.ofBytes data).2 ↔
      (∃ fault, MachO.undefinedSymbols data = .error fault) ∨
        ∃ fault, MachO.imageSummary data = .error fault := by
  cases h : MachO.undefinedSymbols data with
  | ok symbols => simp [parts_of_symbols h, imagePart_errors]
  | error fault => simp [parts_of_symbols_error h, failed_singleton]

lemma structurePart_of_machO (config : Config) (collaborators : Collaborators)
    (hkind : (ContainerKind.detect data).isMachO) (hsymbols : config.hashes.symbols) :
    FileFingerprint.structurePart data config collaborators =
      (none, none, some (MachOFingerprint.ofBytes data).1, (MachOFingerprint.ofBytes data).2) := by
  unfold FileFingerprint.structurePart
  cases hdetect : ContainerKind.detect data <;> simp_all [ContainerKind.isMachO]

/-- The symbol hash of a Mach-O file is there whenever its symbols can be read, and a failure of the
symbols or of the image is recorded. The summary of the image is there exactly when the symbols can
be read as well; when they cannot, nothing of it is kept. -/
theorem macho_parts_exact (config : Config) (collaborators : Collaborators)
    (hkind : (ContainerKind.detect data).isMachO) (hsymbols : config.hashes.symbols) :
    let fp := FileFingerprint.ofBytes data config collaborators
    ∃ macho, fp.macho = some macho ∧
      (∀ symbols, MachO.undefinedSymbols data = .ok symbols →
        macho.isFat = symbols.isFat ∧ macho.symhash = symbols.symhash) ∧
      (∀ image, MachO.imageSummary data = .ok image →
        (macho.image = image ↔ ∃ symbols, MachO.undefinedSymbols data = .ok symbols)) ∧
      (∀ fault, MachO.undefinedSymbols data = .error fault → macho = ⟨false, "", none⟩) ∧
      (Failed .container fp.errors ↔
        (∃ fault, MachO.undefinedSymbols data = .error fault) ∨
          ∃ fault, MachO.imageSummary data = .error fault) := by
  intro fp
  obtain ⟨-, -, hmacho, herrors⟩ :=
    fingerprint_of_structure (structurePart_of_machO config collaborators hkind hsymbols)
  refine ⟨(MachOFingerprint.ofBytes data).1, hmacho, ?_, ?_, ?_, ?_⟩
  · intro symbols h
    rw [parts_of_symbols h]
    exact ⟨rfl, rfl⟩
  · intro image himage
    cases h : MachO.undefinedSymbols data with
    | ok symbols =>
      rw [parts_of_symbols h, imagePart_of_ok himage]
      exact iff_of_true rfl ⟨symbols, rfl⟩
    | error fault =>
      obtain ⟨summary, rfl⟩ := exists_image_of_symbols_error h himage
      rw [parts_of_symbols_error h]
      simp
  · intro fault h
    rw [parts_of_symbols_error h]
  · rw [herrors, failed_behind_fuzzy (by decide)]
    exact parts_errors

end File

/-- A narrow image with one undefined symbol, whose name would have to end within the single byte
`name`. Its range of undefined symbols is empty. -/
def imageWithName (name : UInt8) : Bytes :=
  #[0xce, 0xfa, 0xed, 0xfe, 7, 0, 0, 0, 3, 0, 0, 0, 2, 0, 0, 0, 2, 0, 0, 0, 104, 0, 0, 0, 0, 0, 0, 0] ++
    #[2, 0, 0, 0, 24, 0, 0, 0, 132, 0, 0, 0, 1, 0, 0, 0, 144, 0, 0, 0, 1, 0, 0, 0] ++
    #[11, 0, 0, 0, 80, 0, 0, 0] ++ Array.replicate 72 0 ++ Array.replicate 12 0 ++ #[name]

def emptySummary : MachOImage := ⟨"x86", [], [], [], [], none⟩

theorem macho_parts_exact_of_terminated_name :
    let fp := FileFingerprint.ofBytes (imageWithName 0) {} .none
    (ContainerKind.detect (imageWithName 0)).isMachO ∧
      MachO.undefinedSymbols (imageWithName 0) = .ok ⟨false, some [""]⟩ ∧
      MachO.imageSummary (imageWithName 0) = .ok (some emptySummary) ∧
      ∃ macho, fp.macho = some macho ∧ macho.image = some emptySummary ∧
        macho.symhash = UndefinedSymbols.symhash ⟨false, some [""]⟩ ∧
        ¬Failed .container fp.errors := by
  intro fp
  have hkind : (ContainerKind.detect (imageWithName 0)).isMachO := by decide +kernel
  have hsymbols : MachO.undefinedSymbols (imageWithName 0) = .ok ⟨false, some [""]⟩ := by
    decide +kernel
  have himage : MachO.imageSummary (imageWithName 0) = .ok (some emptySummary) := by
    decide +kernel
  obtain ⟨macho, hmacho, hsymhash, hsummary, -, herrors⟩ :=
    macho_parts_exact {} .none hkind rfl
  refine ⟨hkind, hsymbols, himage, macho, hmacho, ?_, (hsymhash _ hsymbols).2, ?_⟩
  · exact (hsummary _ himage).mpr ⟨_, hsymbols⟩
  · intro hfails
    rw [herrors, hsymbols, himage] at hfails
    simp at hfails

/-- The summary of an image is dropped because the name of a symbol outside the range of undefined
symbols does not end. -/
theorem summary_dropped_for_unterminated_name :
    let fp := FileFingerprint.ofBytes (imageWithName 97) {} .none
    (ContainerKind.detect (imageWithName 97)).isMachO ∧
      MachO.undefinedSymbols (imageWithName 97) = .error .machoSymbolName ∧
      MachO.imageSummary (imageWithName 97) = .ok (some emptySummary) ∧
      fp.macho = some ⟨false, "", none⟩ := by
  have hkind : (ContainerKind.detect (imageWithName 97)).isMachO := by decide +kernel
  have hsymbols : MachO.undefinedSymbols (imageWithName 97) = .error .machoSymbolName := by
    decide +kernel
  refine ⟨hkind, hsymbols, by decide +kernel, ?_⟩
  obtain ⟨-, -, hmacho, -⟩ := fingerprint_of_structure (structurePart_of_machO {} .none hkind rfl)
  rw [hmacho, parts_of_symbols_error hsymbols]

end Hallmark.Proofs
