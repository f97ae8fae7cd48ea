import Hallmark.Text.Utf8

/-!
# Media types by content

The media type of a file by its first bytes: a list of rules, of which the first that fits decides.
-/

namespace Hallmark.MediaType

/-- A condition on the content of a file. -/
abbrev Signature := Bytes → Bool

def octets (offset : Nat) (pattern : List UInt8) : Signature := fun data =>
  Bytes.hasAt data offset pattern.toArray

def text (offset : Nat) (pattern : String) : Signature := fun data =>
  Bytes.hasAt data offset (Bytes.ofString pattern)

/-- The content has more than `n` bytes. -/
def longer (n : Nat) : Signature := fun data => n < data.size

def all (signatures : List Signature) : Signature := fun data => signatures.all (· data)

def any (signatures : List Signature) : Signature := fun data => signatures.any (· data)

def octet (offset : Nat) (p : UInt8 → Bool) : Signature := fun data => (data[offset]?).any p

/-- The big-endian number of `width` octets at `offset` satisfies `p`. -/
def number (width offset : Nat) (p : Nat → Bool) : Signature := fun data =>
  (Bytes.nat? data .big width offset).any p

/-- One of the given texts stands at `offset`. -/
def oneOf (offset : Nat) (patterns : List String) : Signature := any (patterns.map (text offset))

/-- A file of typed boxes that starts with a complete file-type box. -/
def boxed : Signature := fun data =>
  16 ≤ data.size && text 4 "ftyp" data && number 4 0 (· ≤ data.size) data

/-- One of the compatible brands of the file-type box is among `brands`. -/
def compatible (brands : List String) : Signature := fun data =>
  let count := min ((data.size - 16) / 4) ((Bytes.nat? data .big 4 0).getD 0 / 4 - 4)
  (List.range count).any fun i => oneOf (16 + 4 * i) brands data

/-- The magic number of a tagged image file. -/
def taggedImage : Signature := any [octets 0 [0x49, 0x49, 0x2a, 0x00], octets 0 [0x4d, 0x4d, 0x00, 0x2a]]

/-- An executable for a virtual machine on a mobile device. -/
def dexFile : Signature := all [text 0 "dex\n", longer 36, octet 36 (· == 0x70)]

/-- The magic number stands at the start of the first frame that is not to be skipped.  A frame to be skipped states
the length of its payload. -/
def framed (magic : List UInt8) (data : Bytes) (offset : Nat) : Bool :=
  if octets offset magic data then true
  else
    match Bytes.nat? data .little 4 offset, Bytes.nat? data .little 4 (offset + 4) with
    | some mark, some payload =>
      if mark / 16 = 0x184d2a5 ∧ offset + 8 + payload ≤ data.size then
        framed magic data (offset + 8 + payload)
      else false
    | _, _ => false
termination_by data.size - offset

/-- The magic number of an entry of an archive; the name of the entry is thirty bytes behind it. -/
def archiveEntry : List UInt8 := [0x50, 0x4b, 0x03, 0x04]

/-- The place of the name of the next entry of an archive, if it starts within 6000 bytes. -/
def nextName? (data : Bytes) (start : Nat) : Option Nat :=
  (Bytes.find? (data.extract 0 (start + 6000)) archiveEntry.toArray start).map (· + 30)

/-- The folder that a name at `offset` starts with, if it is one of those of Office documents. -/
def officeFolder? (data : Bytes) (offset : Nat) : Option String :=
  ["word/", "ppt/", "xl/"].find? fun folder => text offset folder data

/-- The folder that tells which Office document an archive is.  It is that of the first entry; when that one describes
the package, the second is skipped and the folder is that of the third or of the fourth. -/
def packageFolder? (data : Bytes) : Option String :=
  if octets 0 archiveEntry data then
    officeFolder? data 30 <|> do
      let start := (Bytes.nat? data .little 4 18).getD 0 + 49
      if !oneOf 30 ["[Content_Types].xml", "_rels/.rels", "docProps"] data || UInt32.size ≤ start then none
      let second ← nextName? data start
      let third ← nextName? data second
      officeFolder? data third <|> do
        let fourth ← nextName? data (third + 26)
        officeFolder? data fourth
  else none

/-- An Office document whose content is in the given folder. -/
def office (folder : String) : Signature := fun data => packageFolder? data == some folder

/-- An archive that starts with the name of its OpenDocument type. -/
def openDocument (kind : String) : Signature := all [
  octets 0 archiveEntry, text 30 "mimetype", text 50 ("vnd.oasis.opendocument." ++ kind)]

/-- The upper-case form of an ASCII letter. -/
def upper (b : UInt8) : UInt8 := if 0x61 ≤ b && b ≤ 0x7a then b - 0x20 else b

/-- True when `cs` starts with the text, letter case aside. -/
def startsText (pattern : String) (cs : List UInt8) : Bool :=
  (Bytes.ofString pattern).toList.map upper == (cs.take pattern.utf8ByteSize).map upper

/-- The content without the blanks at its start. -/
def skipBlanks (data : Bytes) : List UInt8 :=
  data.toList.dropWhile fun b => b == 0x09 || b == 0x0a || b == 0x0c || b == 0x0d || b == 0x20

/-- The content without the byte-order marks at its start. -/
def skipMarks : List UInt8 → List UInt8
  | 0xef :: 0xbb :: 0xbf :: rest => skipMarks rest
  | 0xfe :: 0xff :: b :: rest => skipMarks (b :: rest)
  | 0xff :: 0xfe :: b :: rest => skipMarks (b :: rest)
  | rest => rest

/-- The tags that a hypertext document starts with. -/
def hypertextTags : List String :=
  ["<!DOCTYPE HTML", "<HTML", "<HEAD", "<SCRIPT", "<IFRAME", "<H1", "<DIV", "<FONT", "<TABLE", "<A", "<STYLE",
    "<TITLE", "<B", "<BODY", "<BR", "<P", "<!--"]

/-- A hypertext document: one of the tags, ended by a blank or a bracket. -/
def hypertext : Signature := fun data =>
  let cs := skipBlanks data
  hypertextTags.any fun tag =>
    startsText tag cs && (cs[tag.utf8ByteSize]?).any fun b => b == 0x20 || b == 0x3e

/-- A document of extensible markup: its declaration. -/
def markup : Signature := fun data => startsText "<?xml" (skipMarks (skipBlanks data))

/-- The brands of moving pictures. -/
def movieBrands : List String :=
  ["avc1", "dash", "iso2", "iso3", "iso4", "iso5", "iso6", "isom", "mmp4", "mp41", "mp42", "mp4v", "mp71", "MSNV",
    "NDAS", "NDSC", "NSDC", "NDSH", "NDSM", "NDSP", "NDSS", "NDXC", "NDXH", "NDXM", "NDXP", "NDXS", "F4V ", "F4P "]

/-- The rules in order of precedence. -/
def rules : List (String × Signature) := [
  -- programs
  ("application/wasm", octets 0 [0x00, 0x61, 0x73, 0x6d, 0x01, 0x00, 0x00, 0x00]),
  ("application/x-executable", all [octets 0 [0x7f, 0x45, 0x4c, 0x46], longer 52]),
  ("application/vnd.microsoft.portable-executable", text 0 "MZ"),
  ("application/java", all [octets 0 [0xca, 0xfe, 0xba, 0xbe], number 4 4 (45 ≤ ·), number 2 6 (45 ≤ ·)]),
  ("application/x-llvm", text 0 "BC"),
  ("application/x-mach-binary", any [
    octets 0 [0xcf, 0xfa, 0xed, 0xfe], octets 0 [0xce, 0xfa, 0xed, 0xfe],
    octets 0 [0xfe, 0xed, 0xfa, 0xcf], octets 0 [0xfe, 0xed, 0xfa, 0xce],
    all [octets 0 [0xca, 0xfe, 0xba, 0xbe], number 4 4 (· < 45)]]),
  ("application/vnd.android.dex", dexFile),
  ("application/vnd.android.dey", all [text 0 "dey\n", longer 100, fun data => dexFile (data.extract 40 100)]),
  ("application/x-x509-ca-cert", all [octets 0 [0x30, 0x82], longer 2]),
  ("application/x-executable", all [
    any [octets 0 [0x64, 0x86], octets 0 [0x4c, 0x01], octets 0 [0x00, 0x02]], longer 2]),
  ("application/x-x509-ca-cert", all [text 0 "-----BEGIN ", longer 11]),
  -- books and pictures
  ("application/epub+zip", all [octets 0 archiveEntry, text 30 "mimetypeapplication/epub+zip"]),
  ("application/x-mobipocket-ebook", text 60 "BOOKMOBI"),
  ("image/jpeg", octets 0 [0xff, 0xd8, 0xff]),
  ("image/jp2", octets 0 [0x00, 0x00, 0x00, 0x0c, 0x6a, 0x50, 0x20, 0x20, 0x0d, 0x0a, 0x87, 0x0a, 0x00]),
  ("image/png", octets 0 [0x89, 0x50, 0x4e, 0x47]),
  ("image/gif", text 0 "GIF"),
  ("image/webp", text 8 "WEBP"),
  ("image/x-canon-cr2", all [taggedImage, octets 8 [0x43, 0x52, 0x02]]),
  ("image/tiff", all [taggedImage, longer 9, octet 8 (· != 0x43), octet 9 (· != 0x52)]),
  ("image/bmp", text 0 "BM"),
  ("image/vnd.ms-photo", octets 0 [0x49, 0x49, 0xbc]),
  ("image/vnd.adobe.photoshop", text 0 "8BPS"),
  ("image/vnd.microsoft.icon", octets 0 [0x00, 0x00, 0x01, 0x00]),
  ("image/heif", all [boxed, any [
    oneOf 8 ["heic", "heix"], all [oneOf 8 ["mif1", "msf1"], compatible ["heic"]]]]),
  ("image/avif", all [boxed, any [oneOf 8 ["avif", "avis"], compatible ["avif", "avis"]]]),
  ("image/jxl", any [
    all [octets 0 [0xff, 0x0a], longer 2],
    all [octets 0 [0x00, 0x00, 0x00, 0x0c, 0x4a, 0x58, 0x4c, 0x20, 0x0d, 0x0a, 0x87, 0x0a], longer 12]]),
  ("image/openraster", all [octets 0 archiveEntry, text 30 "mimetypeimage/openraster", longer 57]),
  ("image/vnd.djvu", all [text 0 "AT&TFORM", text 12 "DJV"]),
  -- moving pictures
  ("video/mp4", all [text 4 "ftyp", oneOf 8 movieBrands]),
  ("video/x-m4v", text 4 "ftypM4V"),
  ("video/x-matroska", any [
    all [octets 0 [0x1a, 0x45, 0xdf, 0xa3, 0x93, 0x42, 0x82, 0x88], text 8 "matroska"], text 31 "matroska"]),
  ("video/webm", octets 0 [0x1a, 0x45, 0xdf, 0xa3]),
  ("video/quicktime", all [longer 15, any [
    text 4 "ftypqt  ", text 4 "moov", text 4 "mdat", text 12 "mdat"]]),
  ("video/x-msvideo", all [text 0 "RIFF", text 8 "AVI"]),
  ("video/x-ms-wmv", octets 0 [0x30, 0x26, 0xb2, 0x75, 0x8e, 0x66, 0xcf, 0x11, 0xa6, 0xd9]),
  ("video/mpeg", all [octets 0 [0x00, 0x00, 0x01], octet 3 fun b => 0xb0 ≤ b && b ≤ 0xbf]),
  ("video/x-flv", octets 0 [0x46, 0x4c, 0x56, 0x01]),
  -- sound
  ("audio/midi", text 0 "MThd"),
  ("audio/mpeg", all [longer 2, any [text 0 "ID3", octets 0 [0xff, 0xfb]]]),
  ("audio/m4a", all [longer 10, any [text 4 "ftypM4A", text 0 "M4A "]]),
  ("audio/opus", all [text 0 "OggS", text 28 "OpusHead"]),
  ("audio/ogg", text 0 "OggS"),
  ("audio/x-flac", text 0 "fLaC"),
  ("audio/x-wav", all [text 0 "RIFF", text 8 "WAVE"]),
  ("audio/amr", all [text 0 "#!AMR\n", longer 11]),
  ("audio/aac", any [octets 0 [0xff, 0xf1], octets 0 [0xff, 0xf9]]),
  ("audio/x-aiff", all [text 0 "FORM", text 8 "AIFF"]),
  ("audio/x-dsf", all [text 0 "DSD ", longer 4]),
  ("audio/x-ape", all [text 0 "MAC ", longer 4]),
  -- fonts
  ("application/font-woff", all [oneOf 0 ["wOFF", "wOF2"], octets 4 [0x00, 0x01, 0x00, 0x00]]),
  ("application/font-sfnt", any [
    octets 0 [0x00, 0x01, 0x00, 0x00, 0x00], octets 0 [0x4f, 0x54, 0x54, 0x4f, 0x00]]),
  -- documents that are archives
  ("application/vnd.openxmlformats-officedocument.wordprocessingml.document", office "word/"),
  ("application/vnd.openxmlformats-officedocument.spreadsheetml.sheet", office "xl/"),
  ("application/vnd.openxmlformats-officedocument.presentationml.presentation", office "ppt/"),
  ("application/vnd.oasis.opendocument.text", openDocument "text"),
  ("application/vnd.oasis.opendocument.spreadsheet", openDocument "spreadsheet"),
  ("application/vnd.oasis.opendocument.presentation", openDocument "presentation"),
  -- archives and other documents
  ("application/zip", any [
    octets 0 archiveEntry, octets 0 [0x50, 0x4b, 0x05, 0x06], octets 0 [0x50, 0x4b, 0x07, 0x08],
    octets 0 [0x50, 0x4b, 0x30, 0x30, 0x50, 0x4b, 0x03, 0x04]]),
  ("application/x-tar", text 257 "ustar"),
  ("application/x-par2", all [octets 0 [0x50, 0x41, 0x52, 0x32, 0x00, 0x50, 0x4b, 0x54], longer 8]),
  ("application/vnd.rar", all [octets 0 [0x52, 0x61, 0x72, 0x21, 0x1a, 0x07], octet 6 (· ≤ 1)]),
  ("application/gzip", octets 0 [0x1f, 0x8b, 0x08]),
  ("application/x-bzip2", text 0 "BZh"),
  ("application/vnd.bzip3", text 0 "BZ3v1"),
  ("application/x-7z-compressed", octets 0 [0x37, 0x7a, 0xbc, 0xaf, 0x27, 0x1c]),
  ("application/x-xz", octets 0 [0xfd, 0x37, 0x7a, 0x58, 0x5a, 0x00]),
  ("application/pdf", text 0 "%PDF"),
  ("application/x-shockwave-flash", oneOf 0 ["CWS", "FWS"]),
  ("application/rtf", octets 0 [0x7b, 0x5c, 0x72, 0x74, 0x66]),
  ("application/octet-stream", all [text 34 "LP", any [
    octets 8 [0x02, 0x00, 0x01], octets 8 [0x01, 0x00, 0x00], octets 8 [0x02, 0x00, 0x02]]]),
  ("application/postscript", text 0 "%!"),
  ("application/vnd.sqlite3", text 0 "SQLi"),
  ("application/x-nintendo-nes-rom", octets 0 [0x4e, 0x45, 0x53, 0x1a]),
  ("application/x-google-chrome-extension", text 0 "Cr24"),
  ("application/vnd.ms-cab-compressed", oneOf 0 ["MSCF", "ISc("]),
  ("application/vnd.debian.binary-package", text 0 "!<arch>\ndebian-binary"),
  ("application/x-unix-archive", text 0 "!<arch>"),
  ("application/x-compress", any [octets 0 [0x1f, 0xa0], octets 0 [0x1f, 0x9d]]),
  ("application/x-lzip", text 0 "LZIP"),
  ("application/x-rpm", all [octets 0 [0xed, 0xab, 0xee, 0xdb], longer 96]),
  ("application/dicom", text 128 "DICM"),
  ("application/zstd", fun data => framed [0x28, 0xb5, 0x2f, 0xfd] data 0),
  ("application/x-lz4", fun data => framed [0x04, 0x22, 0x4d, 0x18] data 0),
  ("application/x-ole-storage", octets 0 [0xd0, 0xcf, 0x11, 0xe0, 0xa1, 0xb1, 0x1a, 0xe1]),
  ("application/x-cpio", any [
    octets 0 [0xc7, 0x71], octets 0 [0x71, 0xc7], all [text 0 "070701", longer 6]]),
  -- text
  ("text/html", hypertext),
  ("text/xml", markup),
  ("text/x-shellscript", all [text 0 "#!", longer 2])]

/-- The media type that the content shows, if any rule fits. -/
def sniff? (data : Bytes) : Option String :=
  (rules.find? fun rule => rule.2 data).map (·.1)

/-- The number of bytes that the media type of a file is taken from. -/
def headSize : Nat := 8192

/-- The media type of a file: what the rules say of its first bytes, and otherwise plain text if they are the
beginning of a text. -/
def ofFile (data : Bytes) : String :=
  let head := data.extract 0 headSize
  match sniff? head with
  | some mediaType => mediaType
  | none => if Utf8.isPartial head then "text/plain" else "application/octet-stream"

end Hallmark.MediaType
