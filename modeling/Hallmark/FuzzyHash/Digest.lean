/-!
# Digest text

A fuzzy digest is written as its block size and its two piece strings, separated by colons.  A block size is
`3 * 2^k`, and pieces end about every so many bytes.  The first choice is the least of these sizes that covers the
stated length with sixty-four pieces.
-/

namespace Hallmark.FuzzyHash

def minBlockSize : UInt64 := 3

/-- The most pieces of a first piece string, the trailing one included. -/
def maxPieces : Nat := 64

/-- The product, or the greatest 64-bit number when it has no room. -/
def saturatingMul (a b : UInt64) : UInt64 :=
  if a.toNat * b.toNat < UInt64.size then a * b else 0xffffffffffffffff

/-- Doubles `size` until sixty-four blocks of it cover `len` bytes, at most `doublings` times. -/
def coveringSize (len : UInt64) : (doublings : Nat) → (size : UInt64) → UInt64
  | 0, size => size
  | doublings + 1, size =>
    if saturatingMul size 64 < len then coveringSize len doublings (size * 2) else size

/-- The block size that a search for an input of `len` bytes starts with. -/
def initialBlockSize (len : UInt64) : UInt64 := coveringSize len 64 minBlockSize

/-- The sixty-four letters of piece strings, in order of value. -/
def alphabet : List Char :=
  "ABCDEFGHIJKLMNOPQRSTUVWXYZabcdefghijklmnopqrstuvwxyz0123456789+/".toList

/-- The letter of a piece, from the last six bits of its hash. -/
def letter (hash : UInt32) : Char := alphabet.getD (hash % 64).toNat 'A'

/-- A block size and the piece strings at that size and at twice that size. -/
structure Digest where
  blockSize : UInt64
  hash1 : String
  hash2 : String
  deriving Repr, DecidableEq

namespace Digest

def text (d : Digest) : String :=
  toString d.blockSize.toNat ++ ":" ++ d.hash1 ++ ":" ++ d.hash2

/-- The characters before the first colon and those behind it. -/
def cut : List Char → Option (List Char × List Char)
  | [] => none
  | c :: rest => if c = ':' then some ([], rest) else (cut rest).map fun (before, after) => (c :: before, after)

/-- The value of a run of decimal digits. -/
def decimal? (digits : List Char) : Option Nat :=
  if digits ≠ [] ∧ digits.all Char.isDigit then
    some (digits.foldl (fun n c => 10 * n + (c.toNat - '0'.toNat)) 0)
  else none

/-- A block size as it may be written: digits with an optional plus sign, below 2^64. -/
def blockSize? (cs : List Char) : Option UInt64 := do
  let n ← decimal? (match cs with | '+' :: digits => digits | digits => digits)
  if n < UInt64.size then some (UInt64.ofNat n) else none

/-- True for the sizes `3 * 2^k`. -/
def isBlockSize (size : UInt64) : Bool :=
  let n := size.toNat / 3
  size.toNat % 3 = 0 && n = 1 <<< n.log2

/-- True for at most `most` letters of the alphabet. -/
def isPieceString (cs : List Char) (most : Nat) : Bool :=
  cs.length ≤ most && cs.all (alphabet.contains ·)

/-- Reads a digest.  The block size is one of `3 * 2^k`, and the piece strings hold at most 64 and 32 letters. -/
def parse? (s : String) : Option Digest := do
  let (size, rest) ← cut s.toList
  let blockSize ← blockSize? size
  let (hash1, hash2) ← cut rest
  if isBlockSize blockSize && isPieceString hash1 maxPieces && isPieceString hash2 (maxPieces / 2) then
    some ⟨blockSize, String.ofList hash1, String.ofList hash2⟩
  else none

end Digest

end Hallmark.FuzzyHash
