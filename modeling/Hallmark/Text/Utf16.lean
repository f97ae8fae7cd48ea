import Hallmark.Bytes

/-!
# UTF-16

Texts as 16-bit units, and the units of a byte array that ends at its first zero unit.
-/

namespace Hallmark.Utf16

/-- True for the first unit of a pair. -/
def isHigh (u : UInt16) : Bool := 0xd800 ≤ u && u < 0xdc00

/-- True for the second unit of a pair. -/
def isLow (u : UInt16) : Bool := 0xdc00 ≤ u && u < 0xe000

/-- The character that a pair of units denotes. -/
def pairChar (high low : UInt16) : Char :=
  Char.ofNat (0x10000 + (high.toNat - 0xd800) * 0x400 + (low.toNat - 0xdc00))

/-- The characters of a run of units, each unpaired surrogate replaced by U+FFFD. -/
def decode : List UInt16 → List Char
  | [] => []
  | [u] => [if isHigh u || isLow u then '\uFFFD' else Char.ofNat u.toNat]
  | u :: v :: rest =>
    if isHigh u && isLow v then pairChar u v :: decode rest
    else (if isHigh u || isLow u then '\uFFFD' else Char.ofNat u.toNat) :: decode (v :: rest)

def encodeChar (c : Char) : List UInt16 :=
  let n := c.toNat
  if n < 0x10000 then [UInt16.ofNat n]
  else [UInt16.ofNat (0xd800 + (n - 0x10000) / 0x400), UInt16.ofNat (0xdc00 + (n - 0x10000) % 0x400)]

def encode (s : String) : List UInt16 := s.toList.flatMap encodeChar

/-- The little-endian octets of a run of units. -/
def octets (units : List UInt16) : Bytes :=
  (units.flatMap fun u => littleOctets 2 u.toNat).toArray

/-- The whole little-endian units of `data`; a last single octet is left out. -/
def units (data : Bytes) : List UInt16 :=
  (List.range (data.size / 2)).filterMap fun i => Bytes.u16? data (2 * i)

/-- The units of `data` before the first zero unit. -/
def unitsBeforeNul (data : Bytes) : List UInt16 :=
  (units data).takeWhile (· ≠ 0)

/-- The text of `data` up to the first zero unit. -/
def textBeforeNul (data : Bytes) : String :=
  String.ofList (decode (unitsBeforeNul data))

end Hallmark.Utf16
