import Hallmark.Digest.Md5
import Hallmark.ImageFault
import Hallmark.Symbol.Basic
import Hallmark.Text.LetterCase

/-!
# Symbol hashes

The functions that a program offers or calls are part of its identity, whatever the order of its symbol table.  Names
that come from the tools that built it are left out; the others are put in lower case and sorted, and the digest of
their list is the symbol hash.
-/

namespace Hallmark

/-- Names that every program has. -/
def excludedNames : List String :=
  ["__libc_start_main", "main", "abort", "cachectl", "cacheflush", "puts", "atol", "malloc_trim"]

/-- Names that begin like these are helpers of compilers and libraries. -/
def excludedBeginnings : List String := [".", "_", "str", "mem"]

/-- Names that end like these are variants of other names. -/
def excludedEndings : List String := ["64"]

/-- True when a name does not count. -/
def isExcludedName (name : String) : Bool :=
  name == "" || excludedNames.contains name
    || excludedBeginnings.any (fun beginning => beginning.toList.isPrefixOf name.toList)
    || excludedEndings.any (fun ending => ending.toList.isSuffixOf name.toList)

/-- True when a symbol is no part of the hash: only unrestricted global functions are, and not all of them. -/
def Symbol.isExcluded (s : Symbol) : Bool :=
  !(s.isFunction && s.binding = .global && s.visibility = .unrestricted) || isExcludedName s.name

def sortNames (names : List String) : List String := names.mergeSort fun a b => decide (a ≤ b)

/-- The names that count, in lower case and ascending order. -/
def normalizedNames (symbols : List Symbol) : List String :=
  sortNames ((symbols.filter fun s => !s.isExcluded).map fun s => LetterCase.lower s.name)

/-- A list of names as it is digested. -/
def joinNames (names : List String) : String := ",".intercalate names

/-- The analyses that a fingerprint leaves to others. -/
structure Collaborators where
  /-- A similarity digest; without one there is no similarity hash of symbols. -/
  similarity : Option (Bytes → Except FormatError String)
  /-- The targets of the calls in a program without symbols. -/
  recovery : Except FormatError (List String)

/-- No similarity digest, and no call targets. -/
def Collaborators.none : Collaborators := ⟨.none, .ok []⟩

namespace SymbolTables

/-- What enters the digest.  Where there are no symbols the call targets stand for them, as they are found. -/
def digestInput (tables : SymbolTables) (recovery : Except FormatError (List String)) : Except FormatError String :=
  if tables.isEmpty then recovery.map joinNames
  else .ok (joinNames (normalizedNames tables.symbols))

/-- The MD5 digest of the names that count. -/
def symhash (tables : SymbolTables) (recovery : Except FormatError (List String)) : Except FormatError String :=
  (tables.digestInput recovery).map fun input => Digest.md5 (Bytes.ofString input)

/-- The similarity digest of the names that count, in lower case. -/
def telfhash (tables : SymbolTables) (recovery : Except FormatError (List String))
    (similarity : Bytes → Except FormatError String) : Except FormatError String := do
  let input ← tables.digestInput recovery
  let digest ← similarity (Bytes.ofString input)
  return LetterCase.lower digest

end SymbolTables

/-- The symbols that a Mach-O image leaves undefined.  There are none to speak of when the file holds several images,
or one without symbol tables. -/
structure UndefinedSymbols where
  isFat : Bool
  names : Option (List String)
  deriving Repr, DecidableEq

/-- The MD5 digest of the undefined names, as they are stored, in ascending order; empty when there is no list. -/
def UndefinedSymbols.symhash (s : UndefinedSymbols) : String :=
  if s.isFat then ""
  else
    match s.names with
    | none => ""
    | some names => Digest.md5 (Bytes.ofString (joinNames (sortNames names)))

end Hallmark
