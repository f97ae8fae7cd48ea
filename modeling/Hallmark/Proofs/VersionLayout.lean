import Hallmark.Proofs.SizedBlocks
import Hallmark.Proofs.Utf16Texts
import Hallmark.Proofs.VersionExtent

/-!
# Version resources as they are laid out

Blocks of string tables as they may be stored, with every padding counted or left out, and the
resources that a writer makes of a list of names and values.
-/

namespace Hallmark.Proofs
open Pe Pe.VersionStrings

/-- The octets of a text and of a zero unit. -/
def wideText (s : String) : List UInt8 := (Utf16.octets (Utf16.encode s ++ [0])).toList

/-! ## Blocks -/

/-- What a block says of its value and its kind. -/
def typeWords (valueLength kind : UInt16) : List UInt8 :=
  littleOctets 2 valueLength.toNat ++ littleOctets 2 kind.toNat

/-- A string as it is stored; its length may count the zeros behind its value. -/
structure VersionString where
  valueLength : UInt16
  kind : UInt16
  key : String
  value : String
  counted : Bool

namespace VersionString
variable (s : VersionString)

/-- The key, and zeros up to the value. -/
def keyOctets : List UInt8 := wideText s.key ++ zeros (gap (6 + (wideText s.key).length))

def content : List UInt8 := typeWords s.valueLength s.kind ++ (s.keyOctets ++ wideText s.value)

def block : SizedBlock := ⟨s.content, gap (2 + s.content.length), s.counted⟩

structure Writable : Prop where
  key : '\x00' ∉ s.key.toList
  value : '\x00' ∉ s.value.toList
  fits : s.block.length < 2 ^ 16

instance : Decidable s.Writable :=
  decidable_of_iff
    ('\x00' ∉ s.key.toList ∧ '\x00' ∉ s.value.toList ∧ s.block.length < 2 ^ 16)
    ⟨fun ⟨hkey, hvalue, hfits⟩ => ⟨hkey, hvalue, hfits⟩,
      fun ⟨hkey, hvalue, hfits⟩ => ⟨hkey, hvalue, hfits⟩⟩

/-- The name and the value, if the string is text and not empty. -/
def told? : Option VersionEntry :=
  if s.kind = 1 ∧ s.value ≠ "" then some ⟨s.key, s.value⟩ else none

end VersionString

/-- A table of strings, whose key has eight units; its length may count the zeros behind its last
string. -/
structure StringTable where
  valueLength : UInt16
  kind : UInt16
  key : Vector UInt16 8
  strings : List VersionString
  counted : Bool

namespace StringTable
variable (t : StringTable)

def header : List UInt8 :=
  typeWords t.valueLength t.kind ++ (Utf16.octets (t.key.toList ++ [0])).toList

def children : List SizedBlock := t.strings.map VersionString.block

def block : SizedBlock := ⟨t.header ++ joined t.children, lastPadding t.children, t.counted⟩

structure Writable : Prop where
  strings : ∀ s ∈ t.strings, s.Writable
  fits : t.block.length < 2 ^ 16

instance : Decidable t.Writable :=
  decidable_of_iff ((∀ s ∈ t.strings, s.Writable) ∧ t.block.length < 2 ^ 16)
    ⟨fun ⟨hstrings, hfits⟩ => ⟨hstrings, hfits⟩, fun ⟨hstrings, hfits⟩ => ⟨hstrings, hfits⟩⟩

end StringTable

/-- A block of string tables; its length may count the zeros behind its last table. -/
structure StringFileInfo where
  valueLength : UInt16
  kind : UInt16
  tables : List StringTable
  counted : Bool

namespace StringFileInfo
variable (f : StringFileInfo)

def header : List UInt8 := typeWords f.valueLength f.kind ++ wideText "StringFileInfo"

def children : List SizedBlock := f.tables.map StringTable.block

def block : SizedBlock := ⟨f.header ++ joined f.children, lastPadding f.children, f.counted⟩

structure Writable : Prop where
  tables : ∀ t ∈ f.tables, t.Writable
  fits : f.block.length < 2 ^ 16

instance : Decidable f.Writable :=
  decidable_of_iff ((∀ t ∈ f.tables, t.Writable) ∧ f.block.length < 2 ^ 16)
    ⟨fun ⟨htables, hfits⟩ => ⟨htables, hfits⟩, fun ⟨htables, hfits⟩ => ⟨htables, hfits⟩⟩

/-- The octets that the length of the block counts. -/
def stored : List UInt8 := f.block.core ++ zeros f.block.counts

/-- The names and values of all tables, in order. -/
def entries : List VersionEntry := f.tables.flatMap fun t => t.strings.filterMap VersionString.told?

end StringFileInfo

/-! ## Lengths -/

section Lengths

lemma length_typeWords (valueLength kind : UInt16) : (typeWords valueLength kind).length = 4 := rfl

lemma length_wideText (s : String) : (wideText s).length = 2 * ((Utf16.encode s).length + 1) := by
  rw [wideText, length_octets, List.length_append, List.length_singleton]

lemma two_dvd_gap {n : Nat} (h : 2 ∣ n) : 2 ∣ gap n := by
  unfold gap align4
  omega

lemma gap_add_gap (n : Nat) : gap (n + gap n) = 0 := by
  unfold gap align4
  omega

lemma two_dvd_lastPadding {bs : List SizedBlock} (h : ∀ b ∈ bs, 2 ∣ b.padding) :
    2 ∣ lastPadding bs := by
  induction bs with
  | nil => exact Nat.dvd_zero 2
  | cons b bs ih =>
    cases bs with
    | nil => exact h b List.mem_cons_self
    | cons c bs => exact ih fun d hd => h d (List.mem_cons_of_mem b hd)

lemma two_dvd_length_content (s : VersionString) : 2 ∣ s.content.length := by
  simp only [VersionString.content, VersionString.keyOctets, List.length_append, length_typeWords,
    length_wideText, length_zeros, gap, align4]
  omega

lemma VersionString.Writable.block {s : VersionString} (h : s.Writable) : s.block.Writable :=
  ⟨h.fits, two_dvd_gap (by
    have heven := two_dvd_length_content s
    omega)⟩

lemma StringTable.Writable.children {t : StringTable} (h : t.Writable) :
    ∀ b ∈ t.children, b.Writable := by
  intro b hb
  obtain ⟨s, hs, rfl⟩ := List.mem_map.mp hb
  exact (h.strings s hs).block

lemma StringTable.Writable.block {t : StringTable} (h : t.Writable) : t.block.Writable :=
  ⟨h.fits, two_dvd_lastPadding fun b hb => (h.children b hb).even⟩

lemma StringFileInfo.Writable.children {f : StringFileInfo} (h : f.Writable) :
    ∀ b ∈ f.children, b.Writable := by
  intro b hb
  obtain ⟨t, ht, rfl⟩ := List.mem_map.mp hb
  exact (h.tables t ht).block

end Lengths

/-! ## The writer -/

def aligned (buffer : List UInt8) : List UInt8 := buffer ++ zeros (gap buffer.length)

/-- A block, with its length filled in when all of it is there. -/
def writeBlock (key : String) (valueLength kind : Nat) (value children : List UInt8) :
    List UInt8 :=
  let words := overwrite (overwrite (zeros 6) 2 (littleOctets 2 valueLength)) 4
    (littleOctets 2 kind)
  let buffer := aligned (aligned (words ++ wideText key) ++ value) ++ children
  overwrite buffer 0 (littleOctets 2 buffer.length)

def writeString (pair : String × String) : List UInt8 :=
  let value := wideText pair.2
  aligned (writeBlock pair.1 (value.length / 2) 1 value [])

/-- The resource of a file with the given names and values. -/
def versionResource (pairs : List (String × String)) : List UInt8 :=
  let table := writeBlock "040904b0" 0 1 [] (pairs.flatMap writeString)
  let info := writeBlock "StringFileInfo" 0 1 [] table
  let translation := writeBlock "Translation" 4 0 [0x09, 0x04, 0xb0, 0x04] []
  let var := writeBlock "VarFileInfo" 0 1 [] translation
  let fixed := overwrite (zeros 52) 0 (littleOctets 4 0xfeef04bd)
  writeBlock "VS_VERSION_INFO" 52 0 fixed (info ++ var)

example : writeBlock "a" 2 1 (wideText "b") [] =
    [16, 0, 2, 0, 1, 0, 97, 0, 0, 0, 0, 0, 98, 0, 0, 0] := by decide +kernel

section Writer

lemma aligned_append (a b : List UInt8) :
    aligned (a ++ b) = a ++ (b ++ zeros (gap (a.length + b.length))) := by
  rw [aligned, List.length_append, List.append_assoc]

/-- A written block is its length, its words and its key, its value and its children, with zeros
before the value and behind it. -/
lemma writeBlock_eq (key : String) (valueLength kind : Nat) (value children : List UInt8) :
    let rest := littleOctets 2 valueLength ++ littleOctets 2 kind ++
      (wideText key ++ zeros (gap (6 + (wideText key).length)) ++ value)
    let padding := gap (2 + rest.length)
    writeBlock key valueLength kind value children =
      littleOctets 2 (2 + rest.length + padding + children.length) ++
        (rest ++ zeros padding ++ children) := by
  intro rest padding
  have hwords : overwrite (overwrite (zeros 6) 2 (littleOctets 2 valueLength)) 4
      (littleOctets 2 kind) ++ wideText key =
        zeros 2 ++ (littleOctets 2 valueLength ++ littleOctets 2 kind ++ wideText key) := rfl
  have hlength : (zeros 2).length +
      (littleOctets 2 valueLength ++ littleOctets 2 kind ++ wideText key).length =
        6 + (wideText key).length := by
    simp only [List.length_append, length_littleOctets, length_zeros]
    omega
  have hkey : aligned (zeros 2 ++
      (littleOctets 2 valueLength ++ littleOctets 2 kind ++ wideText key)) ++ value =
        zeros 2 ++ rest := by
    rw [aligned_append, hlength]
    simp only [rest, List.append_assoc]
  have htotal : (zeros 2 ++ (rest ++ zeros padding ++ children)).length =
      2 + rest.length + padding + children.length := by
    simp only [List.length_append, length_zeros, Nat.add_assoc]
  have hbuffer : aligned (aligned (overwrite (overwrite (zeros 6) 2 (littleOctets 2 valueLength)) 4
      (littleOctets 2 kind) ++ wideText key) ++ value) ++ children =
        zeros 2 ++ (rest ++ zeros padding ++ children) := by
    rw [hwords, hkey, aligned_append, length_zeros, List.append_assoc]
  simp only [writeBlock, hbuffer, htotal]
  rfl

def writtenString (pair : String × String) : VersionString where
  valueLength := UInt16.ofNat ((Utf16.encode pair.2).length + 1)
  kind := 1
  key := pair.1
  value := pair.2
  counted := true

/-- The digits that name the language of the written table. -/
def languageKey : Vector UInt16 8 := #v[0x30, 0x34, 0x30, 0x39, 0x30, 0x34, 0x62, 0x30]

def writtenTable (pairs : List (String × String)) : StringTable where
  valueLength := 0
  kind := 1
  key := languageKey
  strings := pairs.map writtenString
  counted := true

def writtenInfo (pairs : List (String × String)) : StringFileInfo where
  valueLength := 0
  kind := 1
  tables := [writtenTable pairs]
  counted := true

lemma writeString_eq (pair : String × String) :
    writeString pair =
      (writtenString pair).block.core ++ zeros (writtenString pair).block.padding := by
  have hunits : (wideText pair.2).length / 2 = (Utf16.encode pair.2).length + 1 := by
    rw [length_wideText]
    omega
  have hwords : littleOctets 2 ((Utf16.encode pair.2).length + 1) ++ littleOctets 2 1 =
      typeWords (UInt16.ofNat ((Utf16.encode pair.2).length + 1)) 1 := by
    rw [typeWords, UInt16.toNat_ofNat', ← littleOctets_mod 2 ((Utf16.encode pair.2).length + 1)]
    rfl
  have hblock : writeBlock pair.1 ((wideText pair.2).length / 2) 1 (wideText pair.2) [] =
      (writtenString pair).block.core ++ zeros (writtenString pair).block.padding := by
    rw [writeBlock_eq, hunits, hwords, List.append_nil, List.length_nil, Nat.add_zero,
      ← List.append_assoc]
    rfl
  have hfull : gap ((writtenString pair).block.core ++
      zeros (writtenString pair).block.padding).length = 0 := by
    rw [List.length_append, length_zeros, SizedBlock.length_core]
    exact gap_add_gap _
  rw [writeString, hblock, aligned, hfull]
  exact List.append_nil _

lemma joined_append_zeros (bs : List SizedBlock) :
    joined bs ++ zeros (lastPadding bs) = bs.flatMap fun b => b.core ++ zeros b.padding := by
  induction bs with
  | nil => rfl
  | cons b bs ih =>
    cases bs with
    | nil => simp [joined, lastPadding]
    | cons c bs =>
      rw [joined, lastPadding, List.append_assoc, ih]
      rfl

/-- Where the key needs no zeros behind it, a block without a value is its header and its
children. -/
lemma writeBlock_children {key : String} (hkey : gap (6 + (wideText key).length) = 0)
    (children : List UInt8) :
    let header := typeWords 0 1 ++ wideText key
    writeBlock key 0 1 [] children =
      littleOctets 2 (2 + header.length + children.length) ++ (header ++ children) := by
  intro header
  have hrest : littleOctets 2 0 ++ littleOctets 2 1 ++
      (wideText key ++ zeros (gap (6 + (wideText key).length)) ++ []) = header := by
    rw [hkey, List.append_nil]
    exact congrArg _ (List.append_nil _)
  have hlength : 2 + header.length = 6 + (wideText key).length := by
    rw [List.length_append, length_typeWords]
    omega
  have hnone : zeros 0 = [] := rfl
  rw [writeBlock_eq, hrest, hlength, hkey, Nat.add_zero, hnone, List.append_nil]

/-- A block that counts the zeros behind its last child is its header and its children, each with
its zeros. -/
lemma core_append_zeros (header : List UInt8) (cs : List SizedBlock) :
    let b := SizedBlock.mk (header ++ joined cs) (lastPadding cs) true
    let children := joined cs ++ zeros (lastPadding cs)
    b.core ++ zeros b.padding =
      littleOctets 2 (2 + header.length + children.length) ++ (header ++ children) := by
  intro b children
  have hlength : b.length = 2 + header.length + children.length := by
    simp only [b, children, SizedBlock.length, SizedBlock.counts, List.length_append, length_zeros,
      if_true, Nat.add_assoc]
  rw [SizedBlock.core, hlength]
  simp only [b, children, List.append_assoc]

lemma wideText_languageKey :
    wideText "040904b0" = (Utf16.octets (languageKey.toList ++ [0])).toList := by
  decide +kernel

lemma writtenTable_eq (pairs : List (String × String)) :
    writeBlock "040904b0" 0 1 [] (pairs.flatMap writeString) =
      (writtenTable pairs).block.core ++ zeros (writtenTable pairs).block.padding := by
  have hkey : gap (6 + (wideText "040904b0").length) = 0 := by decide +kernel
  have hchildren : pairs.flatMap writeString =
      joined (writtenTable pairs).children ++ zeros (lastPadding (writtenTable pairs).children) := by
    rw [joined_append_zeros, StringTable.children, writtenTable, List.map_map, List.flatMap_map]
    exact List.flatMap_congr fun pair _ => writeString_eq pair
  rw [writeBlock_children hkey, hchildren, wideText_languageKey]
  exact (core_append_zeros (writtenTable pairs).header (writtenTable pairs).children).symm

lemma writtenInfo_eq (pairs : List (String × String)) :
    writeBlock "StringFileInfo" 0 1 [] (writeBlock "040904b0" 0 1 [] (pairs.flatMap writeString)) =
      (writtenInfo pairs).stored := by
  have hkey : gap (6 + (wideText "StringFileInfo").length) = 0 := by decide +kernel
  rw [writeBlock_children hkey, writtenTable_eq]
  exact (core_append_zeros (writtenInfo pairs).header (writtenInfo pairs).children).symm

/-- What stands between the length of a written resource and its string tables. -/
def resourceStart : List UInt8 :=
  littleOctets 2 52 ++ littleOctets 2 0 ++ wideText "VS_VERSION_INFO" ++ zeros 2 ++
    littleOctets 4 0xfeef04bd ++ zeros 48

/-- The block that names the languages of a written resource. -/
def resourceEnd : List UInt8 :=
  writeBlock "VarFileInfo" 0 1 [] (writeBlock "Translation" 4 0 [0x09, 0x04, 0xb0, 0x04] [])

/-- The written resource has its string tables behind 92 octets. -/
theorem versionResource_eq (pairs : List (String × String)) :
    ∃ length, versionResource pairs =
      littleOctets 2 length ++ resourceStart ++ (writtenInfo pairs).stored ++ resourceEnd := by
  have hfixed : overwrite (zeros 52) 0 (littleOctets 4 0xfeef04bd) =
      littleOctets 4 0xfeef04bd ++ zeros 48 := by decide
  have hstart : littleOctets 2 52 ++ littleOctets 2 0 ++ (wideText "VS_VERSION_INFO" ++
      zeros (gap (6 + (wideText "VS_VERSION_INFO").length)) ++
        (littleOctets 4 0xfeef04bd ++ zeros 48)) = resourceStart := by decide +kernel
  have hlength : gap (2 + resourceStart.length) = 0 := by decide +kernel
  have hnone : zeros 0 = [] := rfl
  refine ⟨2 + resourceStart.length + ((writtenInfo pairs).stored ++ resourceEnd).length, ?_⟩
  have hwhole : versionResource pairs = writeBlock "VS_VERSION_INFO" 52 0
      (overwrite (zeros 52) 0 (littleOctets 4 0xfeef04bd))
        ((writtenInfo pairs).stored ++ resourceEnd) := by
    rw [← writtenInfo_eq]
    rfl
  rw [hwhole, writeBlock_eq, hfixed, hstart, hlength, hnone, Nat.add_zero]
  simp only [List.append_assoc, List.nil_append]

end Writer
end Hallmark.Proofs
