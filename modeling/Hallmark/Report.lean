import Hallmark.Fingerprint

/-!
# Reports

The JSON form of a fingerprint.  Parts that are absent are left out, maps are listed in ascending order of key, and
the bytes of resources are not part of a report.
-/

namespace Hallmark

open Json

namespace Pe

def Header.toJson (h : Header) : Json :=
  .record [
    ("compilation_timestamp", .option (fun n => .nat n.toNat) h.compilationTimestamp),
    ("entrypoint", .nat h.entrypoint.toNat),
    ("target_machine", .text h.targetMachine),
    ("contained_sections", .nat h.containedSections.toNat)]

def Header.ofJson? : Reader Header := fun j => do
  let r ← Record.of? ["compilation_timestamp", "entrypoint", "target_machine", "contained_sections"] j
  return {
    compilationTimestamp := ← r.nullable "compilation_timestamp" Read.u32
    entrypoint := ← r.required "entrypoint" Read.u32
    targetMachine := ← r.required "target_machine" Read.string
    containedSections := ← r.required "contained_sections" Read.u64 }

def SectionSummary.toJson (s : SectionSummary) : Json :=
  .record [
    ("name", .text s.name),
    ("virtual_address", .nat s.virtualAddress.toNat),
    ("virtual_size", .nat s.virtualSize.toNat),
    ("raw_size", .nat s.rawSize.toNat),
    ("entropy", .float s.entropy),
    ("md5", .text s.md5)]

def SectionSummary.ofJson? : Reader SectionSummary := fun j => do
  let r ← Record.of? ["name", "virtual_address", "virtual_size", "raw_size", "entropy", "md5"] j
  return {
    name := ← r.required "name" Read.string
    virtualAddress := ← r.required "virtual_address" Read.u32
    virtualSize := ← r.required "virtual_size" Read.u32
    rawSize := ← r.required "raw_size" Read.u32
    entropy := ← r.required "entropy" Read.float
    md5 := ← r.required "md5" Read.string }

def ResourceLeaf.toJson (leaf : ResourceLeaf) : Json :=
  .record [
    ("type", .text leaf.typeLabel),
    ("language", .nat leaf.language.toNat),
    ("sha256", .text leaf.sha256),
    ("mime", .text leaf.mime),
    ("size", .nat leaf.size.toNat)]

/-- Reads a resource, whose bytes are not there. -/
def ResourceLeaf.ofJson? : Reader ResourceLeaf := fun j => do
  let r ← Record.of? ["type", "language", "sha256", "mime", "size"] j
  return {
    typeLabel := ← r.required "type" Read.string
    language := ← r.required "language" Read.u16
    sha256 := ← r.required "sha256" Read.string
    mime := ← r.required "mime" Read.string
    size := ← r.required "size" Read.u64
    data := #[] }

/-- The JSON form of a version string. -/
def VersionEntry.toJson (e : VersionEntry) : Json :=
  .record [("name", .text e.name), ("value", .text e.value)]

def VersionEntry.ofJson? : Reader VersionEntry := fun j => do
  let r ← Record.of? ["name", "value"] j
  return ⟨← r.required "name" Read.string, ← r.required "value" Read.string⟩

/-- The JSON form of the names that each library is asked for. -/
def importsToJson (imports : SortedMap String (List String)) : Json :=
  .record (imports.entries.map fun (library, names) => (library, .list .text names))

end Pe

namespace PeFingerprint

/-- The JSON form of the structure of a PE image. -/
def toJson (pe : PeFingerprint) : Json :=
  .record <|
    [("header", pe.header.toJson),
      ("sections", .list Pe.SectionSummary.toJson pe.sections)]
    ++ (if pe.exports.isEmpty then [] else [("exports", .list .text pe.exports)])
    ++ Json.memberIf "packer" .text pe.packer
    ++ Json.memberIf "imphash" .text pe.imphash
    ++ [("imports", Pe.importsToJson pe.imports),
      ("resources", .list Pe.ResourceLeaf.toJson pe.resources),
      ("resources_by_type", .record (pe.resourcesByType.entries.map fun (label, n) => (label, .nat n.toNat))),
      ("resources_by_language",
        .record (pe.resourcesByLanguage.entries.map fun (id, n) => (toString id.toNat, .nat n.toNat))),
      ("version_info", .list Pe.VersionEntry.toJson pe.versionInfo)]

/-- Reads the structure of a PE image. -/
def ofJson? : Reader PeFingerprint := fun j => do
  let r ← Record.of? ["header", "sections", "exports", "packer", "imphash", "imports", "resources",
    "resources_by_type", "resources_by_language", "version_info"] j
  return {
    header := ← r.required "header" Pe.Header.ofJson?
    sections := ← r.required "sections" (Read.list Pe.SectionSummary.ofJson?)
    exports := ← r.withDefault "exports" [] (Read.list Read.string)
    packer := ← r.optional "packer" Read.string
    imphash := ← r.optional "imphash" Read.string
    imports := ← r.required "imports" (Read.map Read.stringKey (Read.list Read.string))
    resources := ← r.required "resources" (Read.list Pe.ResourceLeaf.ofJson?)
    resourcesByType := ← r.required "resources_by_type" (Read.map Read.stringKey Read.u64)
    resourcesByLanguage := ← r.required "resources_by_language" (Read.map Read.u16Key Read.u64)
    versionInfo := ← r.required "version_info" (Read.list Pe.VersionEntry.ofJson?) }

end PeFingerprint

namespace ElfFingerprint

/-- The JSON form of the symbol hashes of an ELF image. -/
def toJson (elf : ElfFingerprint) : Json :=
  .record (Json.memberIf "symhash" .text elf.symhash ++ Json.memberIf "telfhash" .text elf.telfhash)

/-- Reads the symbol hashes of an ELF image. -/
def ofJson? : Reader ElfFingerprint := fun j => do
  let r ← Record.of? ["symhash", "telfhash"] j
  return ⟨← r.optional "symhash" Read.string, ← r.optional "telfhash" Read.string⟩

end ElfFingerprint

namespace MachOSection

def toJson (s : MachOSection) : Json :=
  .record <|
    [("name", .text s.name),
      ("address", .nat s.address.toNat),
      ("size", .nat s.size.toNat),
      ("entropy", .float s.entropy)]
    ++ Json.memberIf "md5" .text s.md5

def ofJson? : Reader MachOSection := fun j => do
  let r ← Record.of? ["name", "address", "size", "entropy", "md5"] j
  return {
    name := ← r.required "name" Read.string
    address := ← r.required "address" Read.u64
    size := ← r.required "size" Read.u64
    entropy := ← r.required "entropy" Read.float
    md5 := ← r.optional "md5" Read.string }

end MachOSection

namespace MachOImage

/-- The JSON form of the structure of an image. -/
def toJson (image : MachOImage) : Json :=
  .record [
    ("cpu", .text image.cpu),
    ("sections", .list MachOSection.toJson image.sections),
    ("libraries", .list .text image.libraries),
    ("imports", .list .text image.imports),
    ("exports", .list .text image.exports),
    ("packer", .option .text image.packer)]

def ofJson? : Reader MachOImage := fun j => do
  let r ← Record.of? ["cpu", "sections", "libraries", "imports", "exports", "packer"] j
  return {
    cpu := ← r.required "cpu" Read.string
    sections := ← r.required "sections" (Read.list MachOSection.ofJson?)
    libraries := ← r.required "libraries" (Read.list Read.string)
    imports := ← r.required "imports" (Read.list Read.string)
    exports := ← r.required "exports" (Read.list Read.string)
    packer := ← r.nullable "packer" Read.string }

end MachOImage

namespace MachOFingerprint

/-- The JSON form of the fingerprint of a Mach-O file. -/
def toJson (macho : MachOFingerprint) : Json :=
  .record <|
    [("is_fat", .bool macho.isFat), ("symhash", .text macho.symhash)]
    ++ Json.memberIf "image" MachOImage.toJson macho.image

/-- Reads the fingerprint of a Mach-O file. -/
def ofJson? : Reader MachOFingerprint := fun j => do
  let r ← Record.of? ["is_fat", "symhash", "image"] j
  return {
    isFat := ← r.required "is_fat" Read.bool
    symhash := ← r.required "symhash" Read.string
    image := ← r.optional "image" MachOImage.ofJson? }

end MachOFingerprint

namespace HashError

/-- The JSON form of the failure of a part. -/
def toJson (e : HashError) : Json :=
  .record [("component", .text e.component.name), ("message", .text e.message)]

def ofJson? : Reader HashError := fun j => do
  let r ← Record.of? ["component", "message"] j
  return {
    component := ← r.required "component" (Read.choice HashComponent.name HashComponent.all)
    message := ← r.required "message" Read.string }

end HashError

namespace FileFingerprint

def toJson (fp : FileFingerprint) : Json :=
  .record <|
    [("mime", .text fp.mime),
      ("size", .nat fp.size.toNat),
      ("md5", .text fp.md5),
      ("sha1", .text fp.sha1),
      ("sha256", .text fp.sha256)]
    ++ Json.memberIf "ssdeep" .text fp.ssdeep
    ++ [("container", .text fp.container.name)]
    ++ Json.memberIf "pe" PeFingerprint.toJson fp.pe
    ++ Json.memberIf "elf" ElfFingerprint.toJson fp.elf
    ++ Json.memberIf "macho" MachOFingerprint.toJson fp.macho
    ++ (if fp.errors.isEmpty then [] else [("errors", .list HashError.toJson fp.errors)])

def ofJson? : Reader FileFingerprint := fun j => do
  let r ← Record.of? ["mime", "size", "md5", "sha1", "sha256", "ssdeep", "container", "pe", "elf", "macho",
    "errors"] j
  return {
    mime := ← r.required "mime" Read.string
    size := ← r.required "size" Read.u64
    md5 := ← r.required "md5" Read.string
    sha1 := ← r.required "sha1" Read.string
    sha256 := ← r.required "sha256" Read.string
    ssdeep := ← r.optional "ssdeep" Read.string
    container := ← r.required "container" (Read.choice ContainerKind.name ContainerKind.all)
    pe := ← r.optional "pe" PeFingerprint.ofJson?
    elf := ← r.optional "elf" ElfFingerprint.ofJson?
    macho := ← r.optional "macho" MachOFingerprint.ofJson?
    errors := ← r.withDefault "errors" [] (Read.list HashError.ofJson?) }

def write (fp : FileFingerprint) : String := fp.toJson.toText

def read? (s : String) : Option FileFingerprint := (Json.parse? s).bind ofJson?

end FileFingerprint

end Hallmark
