import Hallmark.Report
import Hallmark.Proofs.JsonRecords

/-!
# Reports that are read back

A report is read back as the fingerprint that it was written for, less the bytes of the resources.
-/

namespace Hallmark.Proofs
open Json

/-! ## PE images -/

lemma readsTo_header (h : Pe.Header) : ReadsTo Pe.Header.ofJson? h.toJson h := by
  have htimestamp : ReadsTo (Read.nullable Read.u32)
      (.option (fun n => .nat n.toNat) h.compilationTimestamp) h.compilationTimestamp :=
    readsTo_option (fun _ h => by cases h) fun n _ => ⟨canonical_nat n.toNat, read_u32 n⟩
  refine ⟨canonical_record (by simp [htimestamp.canonical]), ?_⟩
  rw [Pe.Header.toJson, record_eq_shown, Pe.Header.ofJson?, of?_shown]
  · simp [Record.required, Record.nullable, Record.optional, Record.withDefault, htimestamp.value]
  · rfl
  · decide

lemma readsTo_sectionSummary {s : Pe.SectionSummary} (h : TwoDecimals s.entropy) :
    ReadsTo Pe.SectionSummary.ofJson? s.toJson s := by
  refine ⟨canonical_record (by simp [canonical_float h]), ?_⟩
  rw [Pe.SectionSummary.toJson, record_eq_shown, Pe.SectionSummary.ofJson?, of?_shown]
  · simp [Record.required, read_float h]
  · rfl
  · decide

/-- A resource without its bytes. -/
def leafWithoutData (leaf : Pe.ResourceLeaf) : Pe.ResourceLeaf := { leaf with data := #[] }

lemma readsTo_resourceLeaf (leaf : Pe.ResourceLeaf) :
    ReadsTo Pe.ResourceLeaf.ofJson? leaf.toJson (leafWithoutData leaf) := by
  refine ⟨canonical_record (by simp), ?_⟩
  rw [Pe.ResourceLeaf.toJson, record_eq_shown, Pe.ResourceLeaf.ofJson?, of?_shown]
  · simp [Record.required, leafWithoutData]
  · rfl
  · decide

lemma readsTo_versionEntry (e : Pe.VersionEntry) : ReadsTo Pe.VersionEntry.ofJson? e.toJson e := by
  refine ⟨canonical_record (by simp), ?_⟩
  rw [Pe.VersionEntry.toJson, record_eq_shown, Pe.VersionEntry.ofJson?, of?_shown]
  · simp [Record.required]
  · rfl
  · decide

section Pe
variable (pe : PeFingerprint)

def importsJson : Json := mapJson id (.list .text) pe.imports

def typesJson : Json := mapJson id (fun n : UInt64 => .nat n.toNat) pe.resourcesByType

def languagesJson : Json :=
  mapJson (fun id : UInt16 => toString id.toNat) (fun n : UInt64 => .nat n.toNat)
    pe.resourcesByLanguage

/-- The fields of the structure of a PE image. -/
def peFields : List (String × Option Json) := [
  ("header", some pe.header.toJson),
  ("sections", some (.list Pe.SectionSummary.toJson pe.sections)),
  ("exports", if pe.exports.isEmpty then none else some (.list .text pe.exports)),
  ("packer", pe.packer.map .text),
  ("imphash", pe.imphash.map .text),
  ("imports", some (importsJson pe)),
  ("resources", some (.list Pe.ResourceLeaf.toJson pe.resources)),
  ("resources_by_type", some (typesJson pe)),
  ("resources_by_language", some (languagesJson pe)),
  ("version_info", some (.list Pe.VersionEntry.toJson pe.versionInfo))]

lemma pe_toJson_eq : pe.toJson = .record (shown (peFields pe)) := by
  rw [PeFingerprint.toJson, peFields]
  cases pe.packer <;> cases pe.imphash <;> cases pe.exports <;> rfl

/-- The structure of a PE image without the bytes of the resources. -/
def peWithoutData : PeFingerprint := { pe with resources := pe.resources.map leafWithoutData }

variable {pe}

lemma readsTo_count (n : UInt64) : ReadsTo Read.u64 (.nat n.toNat) n :=
  ⟨canonical_nat n.toNat, read_u64 n⟩

lemma readsTo_pe (h : ∀ s ∈ pe.sections, TwoDecimals s.entropy) :
    ReadsTo PeFingerprint.ofJson? pe.toJson (peWithoutData pe) := by
  have hheader := readsTo_header pe.header
  have hsections := readsTo_list_self fun s hs => readsTo_sectionSummary (h s hs)
  have hexports := readsTo_texts pe.exports
  have himports : ReadsTo (Read.map Read.stringKey (Read.list Read.string)) (importsJson pe)
      pe.imports := readsTo_map stringKey_encode fun e _ => readsTo_texts e.2
  have hresources := readsTo_list fun leaf (_ : leaf ∈ pe.resources) => readsTo_resourceLeaf leaf
  have htypes : ReadsTo (Read.map Read.stringKey Read.u64) (typesJson pe) pe.resourcesByType :=
    readsTo_map stringKey_encode fun e _ => readsTo_count e.2
  have hlanguages : ReadsTo (Read.map Read.u16Key Read.u64) (languagesJson pe)
      pe.resourcesByLanguage := readsTo_map u16Key_encode fun e _ => readsTo_count e.2
  have hversions := readsTo_list_self fun e (_ : e ∈ pe.versionInfo) => readsTo_versionEntry e
  rw [pe_toJson_eq]
  refine ⟨canonical_shown ?_, ?_⟩
  · simp [peFields, hheader.canonical, hsections.canonical, hexports.canonical, himports.canonical,
      hresources.canonical, htypes.canonical, hlanguages.canonical, hversions.canonical]
  · have hlist : (⟨false, shown (peFields pe)⟩ : Record).withDefault "exports" []
        (Read.list Read.string) = some pe.exports :=
      withDefault_shown (by simp [peFields]) hexports
    have hpacker : (⟨false, shown (peFields pe)⟩ : Record).optional "packer" Read.string =
        some pe.packer := optional_shown_text (by simp [peFields])
    have himphash : (⟨false, shown (peFields pe)⟩ : Record).optional "imphash" Read.string =
        some pe.imphash := optional_shown_text (by simp [peFields])
    rw [PeFingerprint.ofJson?, of?_shown]
    · simp only [Option.bind_eq_bind, Option.bind_some, hlist, hpacker, himphash]
      simp [Record.required, peFields, hheader.value, hsections.value, himports.value,
        hresources.value, htypes.value, hlanguages.value, hversions.value, peWithoutData]
    · rfl
    · decide

end Pe

/-! ## ELF and Mach-O images -/

section Elf
variable (elf : ElfFingerprint)

/-- The fields of the symbol hashes of an ELF image. -/
def elfFields : List (String × Option Json) := [
  ("symhash", elf.symhash.map .text),
  ("telfhash", elf.telfhash.map .text)]

lemma elf_toJson_eq : elf.toJson = .record (shown (elfFields elf)) := by
  rw [ElfFingerprint.toJson, elfFields]
  cases elf.symhash <;> cases elf.telfhash <;> rfl

lemma readsTo_elf : ReadsTo ElfFingerprint.ofJson? elf.toJson elf := by
  rw [elf_toJson_eq]
  refine ⟨canonical_shown (by simp [elfFields]), ?_⟩
  have hsymhash : (⟨false, shown (elfFields elf)⟩ : Record).optional "symhash" Read.string =
      some elf.symhash := optional_shown_text (by simp [elfFields])
  have htelfhash : (⟨false, shown (elfFields elf)⟩ : Record).optional "telfhash" Read.string =
      some elf.telfhash := optional_shown_text (by simp [elfFields])
  rw [ElfFingerprint.ofJson?, of?_shown]
  · simp [hsymhash, htelfhash]
  · rfl
  · decide

end Elf

section MachO

/-- The fields of a section of a Mach-O image. -/
def machOSectionFields (s : MachOSection) : List (String × Option Json) := [
  ("name", some (.text s.name)),
  ("address", some (.nat s.address.toNat)),
  ("size", some (.nat s.size.toNat)),
  ("entropy", some (.float s.entropy)),
  ("md5", s.md5.map .text)]

lemma machOSection_toJson_eq (s : MachOSection) :
    s.toJson = .record (shown (machOSectionFields s)) := by
  rw [MachOSection.toJson, machOSectionFields]
  cases s.md5 <;> rfl

lemma readsTo_machOSection {s : MachOSection} (h : TwoDecimals s.entropy) :
    ReadsTo MachOSection.ofJson? s.toJson s := by
  rw [machOSection_toJson_eq]
  refine ⟨canonical_shown (by simp [machOSectionFields, canonical_float h]), ?_⟩
  have hmd5 : (⟨false, shown (machOSectionFields s)⟩ : Record).optional "md5" Read.string =
      some s.md5 := optional_shown_text (by simp [machOSectionFields])
  rw [MachOSection.ofJson?, of?_shown]
  · simp only [Option.bind_eq_bind, Option.bind_some, hmd5]
    simp [Record.required, machOSectionFields, read_float h]
  · rfl
  · decide

lemma readsTo_machOImage {image : MachOImage} (h : ∀ s ∈ image.sections, TwoDecimals s.entropy) :
    ReadsTo MachOImage.ofJson? image.toJson image := by
  have hsections := readsTo_list_self fun s hs => readsTo_machOSection (h s hs)
  have hlibraries := readsTo_texts image.libraries
  have himports := readsTo_texts image.imports
  have hexports := readsTo_texts image.exports
  have hpacker : ReadsTo (Read.nullable Read.string) (.option .text image.packer) image.packer :=
    readsTo_option (fun _ h => by cases h) fun s _ => ⟨canonical_text s, read_text s⟩
  refine ⟨canonical_record (by simp [hsections.canonical, hlibraries.canonical, himports.canonical,
    hexports.canonical, hpacker.canonical]), ?_⟩
  rw [MachOImage.toJson, record_eq_shown, MachOImage.ofJson?, of?_shown]
  · simp [Record.required, Record.nullable, Record.optional, Record.withDefault, hsections.value,
      hlibraries.value, himports.value, hexports.value, hpacker.value]
  · rfl
  · decide

/-- The fields of the fingerprint of a Mach-O file. -/
def machOFields (macho : MachOFingerprint) : List (String × Option Json) := [
  ("is_fat", some (.bool macho.isFat)),
  ("symhash", some (.text macho.symhash)),
  ("image", macho.image.map MachOImage.toJson)]

lemma machO_toJson_eq (macho : MachOFingerprint) :
    macho.toJson = .record (shown (machOFields macho)) := by
  rw [MachOFingerprint.toJson, machOFields]
  cases macho.image <;> rfl

lemma readsTo_machO {macho : MachOFingerprint}
    (h : ∀ image ∈ macho.image, ∀ s ∈ image.sections, TwoDecimals s.entropy) :
    ReadsTo MachOFingerprint.ofJson? macho.toJson macho := by
  have himage (image : MachOImage) (hmem : image ∈ macho.image) :=
    readsTo_machOImage (h image hmem)
  rw [machO_toJson_eq]
  refine ⟨canonical_shown ?_, ?_⟩
  · have hcanonical : ∀ image, macho.image = some image → Canonical image.toJson :=
      fun image hmem => (himage image hmem).canonical
    simpa [machOFields] using hcanonical
  have hoptional : (⟨false, shown (machOFields macho)⟩ : Record).optional "image"
      MachOImage.ofJson? = some macho.image :=
    optional_shown_self (by simp [machOFields]) (fun _ h => by cases h) himage
  rw [MachOFingerprint.ofJson?, of?_shown]
  · simp only [Option.bind_eq_bind, Option.bind_some, hoptional]
    simp [Record.required, machOFields]
  · rfl
  · decide

end MachO

lemma readsTo_hashError (e : HashError) : ReadsTo HashError.ofJson? e.toJson e := by
  have hcomponent : Read.choice HashComponent.name HashComponent.all
      (.text e.component.name) = some e.component := by
    refine read_choice ?_
    cases e.component <;> decide
  refine ⟨canonical_record (by simp), ?_⟩
  rw [HashError.toJson, record_eq_shown, HashError.ofJson?, of?_shown]
  · simp [Record.required, hcomponent]
  · rfl
  · decide

/-! ## Files -/

section File
variable (fp : FileFingerprint)

/-- The fields of the fingerprint of a file. -/
def fileFields : List (String × Option Json) := [
  ("mime", some (.text fp.mime)),
  ("size", some (.nat fp.size.toNat)),
  ("md5", some (.text fp.md5)),
  ("sha1", some (.text fp.sha1)),
  ("sha256", some (.text fp.sha256)),
  ("ssdeep", fp.ssdeep.map .text),
  ("container", some (.text fp.container.name)),
  ("pe", fp.pe.map PeFingerprint.toJson),
  ("elf", fp.elf.map ElfFingerprint.toJson),
  ("macho", fp.macho.map MachOFingerprint.toJson),
  ("errors", if fp.errors.isEmpty then none else some (.list HashError.toJson fp.errors))]

lemma file_toJson_eq : fp.toJson = .record (shown (fileFields fp)) := by
  rw [FileFingerprint.toJson, fileFields]
  cases fp.ssdeep <;> cases fp.pe <;> cases fp.elf <;> cases fp.macho <;> cases fp.errors <;> rfl

/-- The fingerprint of a file without the bytes of the resources. -/
def withoutData : FileFingerprint := { fp with pe := fp.pe.map peWithoutData }

/-- The entropies of all sections have two decimals. -/
structure TwoDecimalEntropies : Prop where
  pe : ∀ pe ∈ fp.pe, ∀ s ∈ pe.sections, TwoDecimals s.entropy
  machO : ∀ macho ∈ fp.macho, ∀ image ∈ macho.image, ∀ s ∈ image.sections, TwoDecimals s.entropy

variable {fp}

lemma readsTo_file (h : TwoDecimalEntropies fp) :
    ReadsTo FileFingerprint.ofJson? fp.toJson (withoutData fp) := by
  have hpe (pe : PeFingerprint) (hmem : pe ∈ fp.pe) := readsTo_pe (h.pe pe hmem)
  have hmacho (macho : MachOFingerprint) (hmem : macho ∈ fp.macho) :=
    readsTo_machO (h.machO macho hmem)
  have hcontainer : Read.choice ContainerKind.name ContainerKind.all (.text fp.container.name) =
      some fp.container := by
    refine read_choice ?_
    cases fp.container <;> decide
  have herrors := readsTo_list_self fun e (_ : e ∈ fp.errors) => readsTo_hashError e
  rw [file_toJson_eq]
  refine ⟨canonical_shown ?_, ?_⟩
  · have hpes : ∀ pe, fp.pe = some pe → Canonical pe.toJson :=
      fun pe hmem => (hpe pe hmem).canonical
    have hmachos : ∀ macho, fp.macho = some macho → Canonical macho.toJson :=
      fun macho hmem => (hmacho macho hmem).canonical
    simpa [fileFields, herrors.canonical, (readsTo_elf _).canonical] using ⟨hpes, hmachos⟩
  · have hfuzzy : (⟨false, shown (fileFields fp)⟩ : Record).optional "ssdeep" Read.string =
        some fp.ssdeep := optional_shown_text (by simp [fileFields])
    have hpes : (⟨false, shown (fileFields fp)⟩ : Record).optional "pe"
        PeFingerprint.ofJson? = some (fp.pe.map peWithoutData) :=
      optional_shown (by simp [fileFields]) (fun _ h => by cases h) hpe
    have helfs : (⟨false, shown (fileFields fp)⟩ : Record).optional "elf"
        ElfFingerprint.ofJson? = some fp.elf :=
      optional_shown_self (by simp [fileFields]) (fun _ h => by cases h)
        fun elf _ => readsTo_elf elf
    have hmachos : (⟨false, shown (fileFields fp)⟩ : Record).optional "macho"
        MachOFingerprint.ofJson? = some fp.macho :=
      optional_shown_self (by simp [fileFields]) (fun _ h => by cases h) hmacho
    have hlist : (⟨false, shown (fileFields fp)⟩ : Record).withDefault "errors" []
        (Read.list HashError.ofJson?) = some fp.errors :=
      withDefault_shown (by simp [fileFields]) herrors
    rw [FileFingerprint.ofJson?, of?_shown]
    · simp only [Option.bind_eq_bind, Option.bind_some, hfuzzy, hpes, helfs, hmachos, hlist]
      simp [Record.required, fileFields, hcontainer, withoutData]
    · rfl
    · decide

/-- The bytes of the resources are no part of a report. -/
lemma toJson_withoutData (fp : FileFingerprint) : (withoutData fp).toJson = fp.toJson := by
  have hleaves (leaves : List Pe.ResourceLeaf) :
      Json.list Pe.ResourceLeaf.toJson (leaves.map leafWithoutData) =
        Json.list Pe.ResourceLeaf.toJson leaves := by
    rw [Json.list, List.map_map]
    rfl
  have hpe (pe : PeFingerprint) : (peWithoutData pe).toJson = pe.toJson := by
    rw [pe_toJson_eq, pe_toJson_eq, peFields, peFields]
    simp only [peWithoutData, hleaves]
    rfl
  have hpes : (fp.pe.map peWithoutData).map PeFingerprint.toJson =
      fp.pe.map PeFingerprint.toJson := by
    cases fp.pe with
    | none => rfl
    | some pe => exact congrArg some (hpe pe)
  rw [file_toJson_eq, file_toJson_eq, fileFields, fileFields]
  simp only [withoutData, hpes]
  rfl

/-- A report is the JSON form of the fingerprint in the spelling of the writer and without blanks. It
is read back as the fingerprint without the bytes of the resources, whose report is the same text. -/
theorem report_read_back (h : TwoDecimalEntropies fp) :
    Canonical fp.toJson ∧ fp.write = String.ofList (written unspaced 0 fp.toJson) ∧
      FileFingerprint.read? fp.write = some (withoutData fp) ∧
      (withoutData fp).write = fp.write := by
  have hread := readsTo_file h
  have hparse : Json.parse? fp.write = some fp.toJson := parse?_toText hread.canonical.proper
  refine ⟨hread.canonical, ?_, ?_, ?_⟩
  · rw [FileFingerprint.write, toText, compact_eq 0]
  · rw [FileFingerprint.read?, hparse, Option.bind_some, hread.value]
  · rw [FileFingerprint.write, toJson_withoutData, FileFingerprint.write]

end File

/-- A fingerprint with some parts and without others, and with the bytes of a resource. -/
def sampleReport : FileFingerprint where
  mime := "application/vnd.microsoft.portable-executable"
  size := 4096
  md5 := "d41d8cd98f00b204e9800998ecf8427e"
  sha1 := "da39a3ee5e6b4b0d3255bfef95601890afd80709"
  sha256 := "e3b0c44298fc1c149afbf4c8996fb92427ae41e4649b934ca495991b7852b855"
  ssdeep := none
  container := .pe
  pe := some {
    header := ⟨some 1700000000, 4096, "x64", 2⟩
    sections := [⟨"UPX0", 4096, 8192, 0, (Binary64.ofNat 0).div (Binary64.ofNat 100), ""⟩,
      ⟨"é\"\\", 12288, 512, 512, (Binary64.ofNat 613).div (Binary64.ofNat 100), "0cc175b9c0f1b6a8"⟩]
    exports := []
    packer := some "UPX"
    imphash := none
    imports := ⟨[("kernel32.dll", ["LoadLibraryA", "ExitProcess"]),
      ("user32.dll", ["MessageBoxW"])], by decide +kernel⟩
    resources := [⟨"RT_ICON", 1033, "ab", "image/png", 3, #[1, 2, 3]⟩]
    resourcesByType := ⟨[("RT_ICON", 1)], by decide +kernel⟩
    resourcesByLanguage := ⟨[(0, 3), (1033, 1)], by decide⟩
    versionInfo := [⟨"ProductName", "line\nbreak"⟩] }
  elf := none
  macho := none
  errors := [⟨.imphash, "truncated"⟩]

theorem report_read_back_sample : TwoDecimalEntropies sampleReport ∧
    FileFingerprint.read? sampleReport.write = some (withoutData sampleReport) ∧
    (withoutData sampleReport).pe.map (fun pe => pe.resources.map (·.data)) = some [#[]] := by
  have hentropies : TwoDecimalEntropies sampleReport := by
    refine ⟨?_, fun _ h => by cases h⟩
    rintro pe ⟨⟩ s hs
    simp only [List.mem_cons, List.not_mem_nil, or_false] at hs
    rcases hs with rfl | rfl
    · exact ⟨0, by decide, rfl⟩
    · exact ⟨613, by decide, rfl⟩
  exact ⟨hentropies, (report_read_back hentropies).2.2.1, rfl⟩

end Hallmark.Proofs
