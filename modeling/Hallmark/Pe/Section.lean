import Hallmark.Digest.Md5
import Hallmark.Entropy
import Hallmark.Text.Utf8

/-!
# Sections

What a section of an image is called, where it is mapped, and what its bytes are.
-/

namespace Hallmark.Pe

structure SectionSummary where
  name : String
  virtualAddress : UInt32
  virtualSize : UInt32
  rawSize : UInt32
  entropy : Binary64
  md5 : String
  deriving Repr, DecidableEq

/-- True when `size` addresses from `start` on include `rva`. -/
def extentContains (start size rva : UInt32) : Bool :=
  start ≤ rva && rva.toNat < start.toNat + size.toNat

namespace SectionSummary

/-- The summary of a section with the given name and content. -/
def ofBytes (rawName : Bytes) (virtualAddress virtualSize rawSize : UInt32) (data : Bytes) : SectionSummary where
  name := Utf8.lossy rawName
  virtualAddress
  virtualSize
  rawSize
  entropy := Entropy.rounded data
  md5 := Digest.md5 data

/-- True when the section is mapped over the address. -/
def contains (s : SectionSummary) (rva : UInt32) : Bool :=
  extentContains s.virtualAddress s.virtualSize rva

end SectionSummary

/-- The packer that the name of a section gives away. -/
def detectPacker (sections : List SectionSummary) : Option String :=
  if sections.any fun s => s.name == "UPX0" then some "upx" else none

end Hallmark.Pe
