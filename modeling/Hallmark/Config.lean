import Hallmark.Json.Record
import Hallmark.Pe.Read

/-!
# Configuration

What a fingerprint computes and how far it goes.  A configuration is written as a JSON object with three sections, and
one that is read needs to name only the values that differ from the usual ones.
-/

namespace Hallmark

structure FileConfig where
  /-- The size of the largest file that is opened. -/
  maxFileSize : UInt64 := 268435456
  deriving Repr, DecidableEq

/-- The hashes that can be switched off. -/
structure HashConfig where
  /-- The fuzzy digest of the whole file. -/
  ssdeep : Bool := true
  /-- The import hash of a PE image. -/
  imphash : Bool := true
  /-- The resources of a PE image and its version strings. -/
  resources : Bool := true
  /-- The symbol hashes of ELF and Mach-O images. -/
  symbols : Bool := true
  deriving Repr, DecidableEq

structure Config where
  io : FileConfig := {}
  hashes : HashConfig := {}
  parse : Pe.Options := {}
  deriving Repr, DecidableEq

open Json

/-- The JSON form of the limits on files. -/
def FileConfig.toJson (c : FileConfig) : Json :=
  .record [("max_file_size", .nat c.maxFileSize.toNat)]

def FileConfig.ofJson? : Reader FileConfig := fun j => do
  let r ← Record.of? ["max_file_size"] j
  return { maxFileSize := ← r.withDefault "max_file_size" ({} : FileConfig).maxFileSize Read.u64 }

/-- The JSON form of the choice of hashes. -/
def HashConfig.toJson (c : HashConfig) : Json :=
  .record [
    ("ssdeep", .bool c.ssdeep),
    ("imphash", .bool c.imphash),
    ("resources", .bool c.resources),
    ("symbols", .bool c.symbols)]

def HashConfig.ofJson? : Reader HashConfig := fun j => do
  let r ← Record.of? ["ssdeep", "imphash", "resources", "symbols"] j
  return {
    ssdeep := ← r.withDefault "ssdeep" true Read.bool
    imphash := ← r.withDefault "imphash" true Read.bool
    resources := ← r.withDefault "resources" true Read.bool
    symbols := ← r.withDefault "symbols" true Read.bool }

namespace Pe.Options

/-- The JSON form of the limits of the PE parsers. -/
def toJson (o : Options) : Json :=
  .record [
    ("max_imports", .nat o.maxImports.toNat),
    ("max_resources", .nat o.maxResources.toNat),
    ("max_resource_entries", .nat o.maxResourceEntries.toNat),
    ("sniff_resource_mime", .bool o.sniffResources)]

def ofJson? : Reader Options := fun j => do
  let r ← Record.of? ["max_imports", "max_resources", "max_resource_entries", "sniff_resource_mime"] j
  let usual : Options := {}
  return {
    maxImports := ← r.withDefault "max_imports" usual.maxImports Read.u64
    maxResources := ← r.withDefault "max_resources" usual.maxResources Read.u64
    maxResourceEntries := ← r.withDefault "max_resource_entries" usual.maxResourceEntries Read.u64
    sniffResources := ← r.withDefault "sniff_resource_mime" usual.sniffResources Read.bool }

end Pe.Options

namespace Config

def toJson (c : Config) : Json :=
  .record [("io", c.io.toJson), ("hashes", c.hashes.toJson), ("parse", c.parse.toJson)]

def ofJson? : Reader Config := fun j => do
  let r ← Record.of? ["io", "hashes", "parse"] j
  return {
    io := ← r.withDefault "io" {} FileConfig.ofJson?
    hashes := ← r.withDefault "hashes" {} HashConfig.ofJson?
    parse := ← r.withDefault "parse" {} Pe.Options.ofJson? }

def write (c : Config) : String := c.toJson.toPrettyText

def read? (s : String) : Option Config := (Json.parse? s).bind ofJson?

end Config

end Hallmark
