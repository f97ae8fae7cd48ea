/-!
# Faults of executable images

Why a file cannot be read as an executable of some format.
-/

namespace Hallmark

/-- The first rule of its format that an image breaks. -/
inductive ImageFault where
  /-- The file is too short to tell its format. -/
  | magicMissing
  /-- The first bytes belong to no format. -/
  | magicUnknown
  /-- A DOS executable without a PE header that can be read. -/
  | dosUnknown
  /-- An object file without a name for its format. -/
  | anonymousObject
  /-- A known format that is not a single executable. -/
  | formatUnsupported
  | notPe
  | notElf
  | notMachO
  -- PE images
  | peHeaders
  | peOptionalHeaderTooSmall
  | peOptionalHeader
  | peDirectoryCount
  | peSectionTable
  | peSection
  -- ELF images
  | elfHeader
  | elfHeaderUnsupported
  | elfProgramHeaderCount
  | elfProgramHeaderEntry
  | elfProgramHeaders
  | elfSectionHeaderEntry
  | elfSectionHeaders
  | elfFirstSectionHeader
  | elfSectionNamesMissing
  | elfSectionNamesIndex
  | elfSectionNames
  | elfSymbolTable
  | elfSectionIndex
  | elfStringSectionType
  | elfStringSection
  | elfExtendedIndices
  | elfRelocationTarget
  | elfRelocationChain
  | elfSymbolName
  -- Mach-O images
  | machoHeader
  | machoCommandTable
  | machoCommandHeader
  | machoCommandSize
  | machoCommandTooShort
  | machoSectionCount
  | machoSymbolTable
  | machoSymbolName
  | machoCommandString
  deriving Repr, DecidableEq

def ImageFault.message : ImageFault → String
  | magicMissing => "Could not read file magic"
  | magicUnknown => "Unknown file magic"
  | dosUnknown => "Unknown MS-DOS file"
  | anonymousObject => "Unknown anon object file"
  | formatUnsupported => "Unsupported file format"
  | notPe => "not a PE image"
  | notElf => "not an ELF image"
  | notMachO => "not a Mach-O image"
  | peHeaders => "Invalid PE headers offset or size"
  | peOptionalHeaderTooSmall => "PE optional header size is too small"
  | peOptionalHeader => "Invalid PE optional header size"
  | peDirectoryCount => "Invalid PE number of RVA and sizes"
  | peSectionTable => "Invalid COFF/PE section headers"
  | peSection => "Invalid PE section offset or size"
  | elfHeader => "Invalid ELF header size or alignment"
  | elfHeaderUnsupported => "Unsupported ELF header"
  | elfProgramHeaderCount => "Missing ELF section headers for e_phnum overflow"
  | elfProgramHeaderEntry => "Invalid ELF program header entry size"
  | elfProgramHeaders => "Invalid ELF program header size or alignment"
  | elfSectionHeaderEntry => "Invalid ELF section header entry size"
  | elfSectionHeaders => "Invalid ELF section header offset/size/alignment"
  | elfFirstSectionHeader => "Invalid ELF section header offset or size"
  | elfSectionNamesMissing => "Missing ELF e_shstrndx"
  | elfSectionNamesIndex => "Invalid ELF e_shstrndx"
  | elfSectionNames => "Invalid ELF shstrtab size"
  | elfSymbolTable => "Invalid ELF symbol table data"
  | elfSectionIndex => "Invalid ELF section index"
  | elfStringSectionType => "Invalid ELF string section type"
  | elfStringSection => "Invalid ELF string section offset or size"
  | elfExtendedIndices => "Invalid ELF symtab_shndx data"
  | elfRelocationTarget => "Invalid ELF sh_info for relocation section"
  | elfRelocationChain => "Unsupported ELF sh_info for relocation section"
  | elfSymbolName => "Invalid ELF symbol name offset"
  | machoHeader => "Invalid Mach-O header size or alignment"
  | machoCommandTable => "Invalid Mach-O load command table size"
  | machoCommandHeader => "Invalid Mach-O load command header"
  | machoCommandSize => "Invalid Mach-O load command size"
  | machoCommandTooShort => "Invalid Mach-O command size"
  | machoSectionCount => "Invalid Mach-O number of sections"
  | machoSymbolTable => "Invalid Mach-O symbol table offset or size"
  | machoSymbolName => "Invalid Mach-O symbol name offset"
  | machoCommandString => "Invalid load command string offset"

/-- A binary format that an analysis does not understand. -/
structure FormatError where
  reason : String
  deriving Repr, DecidableEq

namespace FormatError

/-- The error that stands for an image fault. -/
def ofFault (fault : ImageFault) : FormatError := ⟨fault.message⟩

def message (e : FormatError) : String := "Invalid binary format: " ++ e.reason

end FormatError

end Hallmark
