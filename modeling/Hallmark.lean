import Hallmark.File
import Hallmark.Proofs.BlockSizeSearch
import Hallmark.Proofs.ImportAcceptance
import Hallmark.Proofs.ImportRoundTrip
import Hallmark.Proofs.LocatedStructures
import Hallmark.Proofs.NeighbouringSizes
import Hallmark.Proofs.RecordedErrors
import Hallmark.Proofs.ResourceBounds
import Hallmark.Proofs.ResourceRoundTrip
import Hallmark.Proofs.Resynchronisation
import Hallmark.Proofs.SourceFaults
import Hallmark.Proofs.SymbolNames
import Hallmark.Proofs.Toggles
import Hallmark.Proofs.VersionRoundTrip
import Hallmark.Proofs.VersionTypes
import Hallmark.Report
import Hallmark.Proofs.FieldRecords
import Hallmark.Proofs.MachOSymbols
import Hallmark.Proofs.ElfSections
import Hallmark.Proofs.ElfSymbols
import Hallmark.Proofs.BuiltImages
import Hallmark.Proofs.BuiltInputs
import Hallmark.Proofs.JsonNumbers
import Hallmark.Proofs.JsonStrings
import Hallmark.Proofs.JsonTexts
import Hallmark.Proofs.RoundedRatios
import Hallmark.Proofs.ShortestDecimals
import Hallmark.Proofs.DecimalReads
import Hallmark.Proofs.JsonRecords
import Hallmark.Proofs.ReportRoundTrip
import Hallmark.Proofs.DigestShapes
import Hallmark.Proofs.ImportLimits
import Hallmark.Proofs.LetterContexts
import Hallmark.Proofs.LibrarySpellings
import Hallmark.Proofs.ImportGroups
import Hallmark.Proofs.ImportSequences
import Hallmark.Proofs.VersionSlices
import Hallmark.Proofs.CutTexts
import Hallmark.Proofs.FirstBlockSize
import Hallmark.Proofs.Shortages
import Hallmark.Proofs.PartialConfigs
import Hallmark.Proofs.ExactReads
