import Hallmark.Config
import Hallmark.Digest.Sha1
import Hallmark.Elf.Symbols
import Hallmark.FuzzyHash.Search
import Hallmark.MachO.Summary
import Hallmark.Pe.VersionStrings

/-!
# Fingerprints

The identity of a file: digests of its content, and hashes of its structure when it is an executable.  The parts are
independent; one that fails is recorded as an error and leaves the others as they are.
-/

namespace Hallmark

/-- The parts of a fingerprint that can fail. -/
inductive HashComponent where
  | ssdeep
  | imphash
  | resources
  | symhash
  | telfhash
  | container
  deriving Repr, DecidableEq

namespace HashComponent

/-- The name of a part in the errors of a report. -/
def name : HashComponent → String
  | ssdeep => "Ssdeep"
  | imphash => "Imphash"
  | resources => "Resources"
  | symhash => "Symhash"
  | telfhash => "Telfhash"
  | container => "Container"

/-- The name of a part in messages. -/
def label : HashComponent → String
  | ssdeep => "ssdeep"
  | imphash => "imphash"
  | resources => "resources"
  | symhash => "symhash"
  | telfhash => "telfhash"
  | container => "container"

def all : List HashComponent := [ssdeep, imphash, resources, symhash, telfhash, container]

end HashComponent

structure HashError where
  component : HashComponent
  message : String
  deriving Repr, DecidableEq

def HashError.text (e : HashError) : String := e.component.label ++ ": " ++ e.message

structure PeFingerprint where
  header : Pe.Header
  sections : List Pe.SectionSummary
  exports : List String
  packer : Option String
  imphash : Option String
  imports : SortedMap String (List String)
  resources : List Pe.ResourceLeaf
  resourcesByType : SortedMap String UInt64
  resourcesByLanguage : SortedMap UInt16 UInt64
  versionInfo : List Pe.VersionEntry

/-- The symbol hashes of an ELF image. -/
structure ElfFingerprint where
  symhash : Option String
  telfhash : Option String
  deriving Repr, DecidableEq

/-- The symbol hash of a Mach-O file and the structure of its image. -/
structure MachOFingerprint where
  isFat : Bool
  symhash : String
  image : Option MachOImage
  deriving Repr, DecidableEq

structure FileFingerprint where
  mime : String
  size : UInt64
  md5 : String
  sha1 : String
  sha256 : String
  ssdeep : Option String
  container : ContainerKind
  pe : Option PeFingerprint
  elf : Option ElfFingerprint
  macho : Option MachOFingerprint
  errors : List HashError

/-- The result of a part, or the record of its failure. -/
def attempt {ε α : Type} (component : HashComponent) (message : ε → String) :
    Except ε α → Option α × List HashError
  | .ok a => (some a, [])
  | .error e => (none, [⟨component, message e⟩])

namespace PeFingerprint

/-- The import hash, when it is asked for. -/
def importPart (inputs : Pe.Inputs) (config : Config) : Option Pe.ImportHash × List HashError :=
  if config.hashes.imphash then
    attempt .imphash Pe.Error.message (Pe.ImportHash.ofDirectory inputs.imports config.parse)
  else (none, [])

/-- The resources, when they are asked for and there are any. -/
def resourcePart (inputs : Pe.Inputs) (config : Config) : Option (List Pe.ResourceLeaf) × List HashError :=
  match inputs.resources with
  | some tree =>
    if config.hashes.resources then
      attempt .resources Pe.Error.message (Pe.ResourceTree.leaves tree config.parse)
    else (none, [])
  | none => (none, [])

/-- The fingerprint of an image, and the parts that failed. -/
def ofInputs (inputs : Pe.Inputs) (config : Config) : PeFingerprint × List HashError :=
  let (hash, importErrors) := importPart inputs config
  let (found, resourceErrors) := resourcePart inputs config
  let leaves := found.getD []
  ({ header := inputs.header
     sections := inputs.sections
     exports := inputs.exports
     packer := Pe.detectPacker inputs.sections
     imphash := hash.map Pe.ImportHash.imphash
     imports := (hash.map Pe.ImportHash.imports).getD .empty
     resources := leaves
     resourcesByType := leaves.foldl (fun counts leaf => counts.count leaf.typeLabel) .empty
     resourcesByLanguage := leaves.foldl (fun counts leaf => counts.count leaf.language) .empty
     versionInfo := Pe.VersionStrings.ofLeaves leaves },
    importErrors ++ resourceErrors)

/-- The fingerprint of a file that is a PE image. -/
def ofBytes (data : Bytes) (config : Config) : Option PeFingerprint × List HashError :=
  match Pe.Inputs.ofBytes data with
  | .ok inputs =>
    let (pe, errors) := ofInputs inputs config
    (some pe, errors)
  | .error e => (none, [⟨.container, e.message⟩])

end PeFingerprint

namespace ElfFingerprint

/-- The similarity hash of symbols, when there is a similarity digest. -/
def similarityPart (tables : SymbolTables) (collaborators : Collaborators) : Option String × List HashError :=
  match collaborators.similarity with
  | some similarity =>
    attempt .telfhash FormatError.message (tables.telfhash collaborators.recovery similarity)
  | none => (none, [])

/-- The fingerprint of a file that is an ELF image, and the parts that failed. -/
def ofBytes (data : Bytes) (collaborators : Collaborators) : ElfFingerprint × List HashError :=
  match Elf.symbolTables data with
  | .error fault => (⟨none, none⟩, [⟨.container, (FormatError.ofFault fault).message⟩])
  | .ok tables =>
    let (symhash, errors) := attempt .symhash FormatError.message (tables.symhash collaborators.recovery)
    let (telfhash, more) := similarityPart tables collaborators
    (⟨symhash, telfhash⟩, errors ++ more)

end ElfFingerprint

namespace MachOFingerprint

/-- The summary of the image, and the failure to take it. -/
def imagePart (data : Bytes) : Option MachOImage × List HashError :=
  let (image, errors) := attempt .container (FormatError.message ∘ FormatError.ofFault) (MachO.imageSummary data)
  (image.join, errors)

/-- The fingerprint of a Mach-O file, and the parts that failed.  An image whose symbols cannot be read is not
summarised. -/
def ofBytes (data : Bytes) : MachOFingerprint × List HashError :=
  match MachO.undefinedSymbols data with
  | .error fault => (⟨false, "", none⟩, [⟨.container, (FormatError.ofFault fault).message⟩])
  | .ok undefined =>
    let (image, errors) := imagePart data
    (⟨undefined.isFat, undefined.symhash, image⟩, errors)

end MachOFingerprint

namespace FileFingerprint

/-- The fuzzy digest, when it is asked for. -/
def fuzzyPart (data : Bytes) (config : Config) : Option String × List HashError :=
  if config.hashes.ssdeep then
    let (digest, errors) := attempt .ssdeep FuzzyHash.Failure.message (FuzzyHash.ofBytes data)
    (digest.join.map FuzzyHash.Digest.text, errors)
  else (none, [])

/-- The structure of an executable, and the parts that failed. -/
def structurePart (data : Bytes) (config : Config) (collaborators : Collaborators) :
    Option PeFingerprint × Option ElfFingerprint × Option MachOFingerprint × List HashError :=
  match ContainerKind.detect data with
  | .pe =>
    let (pe, errors) := PeFingerprint.ofBytes data config
    (pe, none, none, errors)
  | .elf =>
    if config.hashes.symbols then
      let (elf, errors) := ElfFingerprint.ofBytes data collaborators
      (none, some elf, none, errors)
    else (none, none, none, [])
  | .machO | .machOFat =>
    if config.hashes.symbols then
      let (macho, errors) := MachOFingerprint.ofBytes data
      (none, none, some macho, errors)
    else (none, none, none, [])
  | .other => (none, none, none, [])

def ofBytes (data : Bytes) (config : Config) (collaborators : Collaborators) : FileFingerprint :=
  let (ssdeep, fuzzyErrors) := fuzzyPart data config
  let (pe, elf, macho, structureErrors) := structurePart data config collaborators
  { mime := MediaType.ofFile data
    size := UInt64.ofNat data.size
    md5 := Digest.md5 data
    sha1 := Digest.sha1 data
    sha256 := Digest.sha256 data
    ssdeep
    container := ContainerKind.detect data
    pe
    elf
    macho
    errors := fuzzyErrors ++ structureErrors }

def isComplete (fp : FileFingerprint) : Bool := fp.errors.isEmpty

end FileFingerprint

end Hallmark
