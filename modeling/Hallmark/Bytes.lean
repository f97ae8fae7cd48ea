/-!
# Bytes

File content, sections and stored names are arrays of octets.  Every access states a place as a natural
number, so a sum of offsets never wraps: a read succeeds exactly when its last byte lies in the array.
-/

namespace Hallmark

abbrev Bytes := Array UInt8

/-- The order in which the octets of a number are stored. -/
inductive ByteOrder where
  | little
  | big
  deriving Repr, DecidableEq

/-- The number whose least significant octet comes first. -/
def littleValue : List UInt8 → Nat
  | [] => 0
  | b :: rest => b.toNat + 256 * littleValue rest

/-- The number that a run of octets denotes in the given order. -/
def ByteOrder.value : ByteOrder → List UInt8 → Nat
  | .little, bs => littleValue bs
  | .big, bs => littleValue bs.reverse

/-- The `count` octets of `n`, least significant first; higher ones are dropped. -/
def littleOctets : (count n : Nat) → List UInt8
  | 0, _ => []
  | count + 1, n => UInt8.ofNat n :: littleOctets count (n / 256)

/-- The `count` octets of `n` in the given order. -/
def ByteOrder.octets : ByteOrder → (count n : Nat) → List UInt8
  | .little, count, n => littleOctets count n
  | .big, count, n => (littleOctets count n).reverse

namespace Bytes

def ofString (s : String) : Bytes := s.toUTF8.data

/-- The `len` bytes at `offset`, or nothing when they are not all there. -/
def slice? (data : Bytes) (offset len : Nat) : Option Bytes :=
  if offset + len ≤ data.size then some (data.extract offset (offset + len)) else none

/-- Everything from `offset` on, or nothing when `offset` lies behind the end. -/
def from? (data : Bytes) (offset : Nat) : Option Bytes :=
  if offset ≤ data.size then some (data.extract offset data.size) else none

/-- The `len` bytes at `offset`; no bytes are found anywhere, even behind the end. -/
def range? (data : Bytes) (offset len : Nat) : Option Bytes :=
  if len = 0 then some #[] else slice? data offset len

/-- The number stored in `width` octets at `offset`. -/
def nat? (data : Bytes) (order : ByteOrder) (width offset : Nat) : Option Nat :=
  (slice? data offset width).map fun bs => order.value bs.toList

/-- The little-endian 16-bit word at `offset`. -/
def u16? (data : Bytes) (offset : Nat) : Option UInt16 :=
  (nat? data .little 2 offset).map UInt16.ofNat

/-- The little-endian 32-bit word at `offset`. -/
def u32? (data : Bytes) (offset : Nat) : Option UInt32 :=
  (nat? data .little 4 offset).map UInt32.ofNat

/-- The little-endian 64-bit word at `offset`. -/
def u64? (data : Bytes) (offset : Nat) : Option UInt64 :=
  (nat? data .little 8 offset).map UInt64.ofNat

/-- The first place at or after `offset`, and before `stop`, that holds a zero octet. -/
def nul? (data : Bytes) (offset stop : Nat) : Option Nat :=
  if offset < stop then
    if h : offset < data.size then
      if data[offset] = 0 then some offset else nul? data (offset + 1) stop
    else none
  else none
termination_by stop - offset

/-- The octets from `offset` up to a zero octet before `stop`, the zero excluded. -/
def cstring? (data : Bytes) (offset stop : Nat) : Option Bytes :=
  (nul? data offset stop).map fun close => data.extract offset close

/-- The octets before the first zero, or all of them when there is none. -/
def beforeNul (data : Bytes) : Bytes :=
  (cstring? data 0 data.size).getD data

def hasAt (data : Bytes) (offset : Nat) (pattern : Bytes) : Bool :=
  slice? data offset pattern.size == some pattern

/-- The first place at or after `offset` where `pattern` stands. -/
def find? (data pattern : Bytes) (offset : Nat) : Option Nat :=
  if h : offset + pattern.size ≤ data.size then
    if hasAt data offset pattern then some offset
    else if offset < data.size then find? data pattern (offset + 1) else none
  else none
termination_by data.size - offset

/-- The first `count` records of equal size in a table. -/
def records (table : Bytes) (size count : Nat) : List Bytes :=
  (List.range count).map fun i => table.extract (size * i) (size * (i + 1))

/-- Two lowercase hexadecimal digits for each octet. -/
def hex (data : Bytes) : String :=
  String.ofList (data.toList.flatMap fun b => [(b.toNat / 16).digitChar, (b.toNat % 16).digitChar])

end Bytes

/-- The least multiple of four that is not below `n`. -/
def align4 (n : Nat) : Nat := (n + 3) / 4 * 4

end Hallmark
