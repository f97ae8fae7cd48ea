import Hallmark.FuzzyHash.Digest
import Hallmark.FuzzyHash.Rolling

/-!
# Passes

One pass over an input at one block size.  A piece ends where the rolling hash leaves the greatest remainder modulo
the block size, and is summarised by one letter; a second string does the same at twice the block size.
-/

namespace Hallmark.FuzzyHash

/-- The hash of a piece before its first byte. -/
def pieceSeed : UInt32 := 0x28021967

/-- Takes a byte into the hash of a piece. -/
def pieceMix (hash : UInt32) (b : UInt8) : UInt32 := (hash * 0x01000193) ^^^ b.toUInt32

/-- The state of a pass: the rolling hash, the hashes of the two open pieces, and the letters of the closed ones. -/
structure Pass where
  rolling : Rolling
  piece1 : UInt32
  piece2 : UInt32
  letters1 : Array Char
  letters2 : Array Char
  deriving Repr, DecidableEq

namespace Pass

/-- A pass that has read nothing. -/
def fresh : Pass := ⟨.fresh, pieceSeed, pieceSeed, #[], #[]⟩

/-- True when a piece ends at the current byte for the given block size. -/
def atBoundary (r : Rolling) (size : UInt64) : Bool := r.sum.toUInt64 % size == size - 1

/-- Takes up one byte without looking for boundaries. -/
def absorb (p : Pass) (b : UInt8) : Pass :=
  { p with rolling := p.rolling.push b, piece1 := pieceMix p.piece1 b, piece2 := pieceMix p.piece2 b }

/-- Closes the open piece of the first string; a full string keeps it open to the end. -/
def close1 (p : Pass) : Pass :=
  if p.letters1.size < maxPieces - 1 then
    { p with letters1 := p.letters1.push (letter p.piece1), piece1 := pieceSeed }
  else p

/-- Closes the open piece of the second string; a full string keeps it open to the end. -/
def close2 (p : Pass) : Pass :=
  if p.letters2.size < maxPieces / 2 - 1 then
    { p with letters2 := p.letters2.push (letter p.piece2), piece2 := pieceSeed }
  else p

/-- Takes up one byte.  A boundary at twice the block size is always one at the block size too. -/
def step (size : UInt64) (p : Pass) (b : UInt8) : Pass :=
  let p := p.absorb b
  if atBoundary p.rolling size then
    let p := p.close1
    if atBoundary p.rolling (size * 2) then p.close2 else p
  else p

/-- The state that a pass starts with.  Only the rolling hash is new; the rest is as the last pass left it. -/
def rewound (p : Pass) : Pass := { p with rolling := .fresh }

/-- Drops the letters and the open pieces of a pass that closed too few. -/
def discarded (p : Pass) : Pass :=
  { p with piece1 := pieceSeed, piece2 := pieceSeed, letters1 := #[], letters2 := #[] }

/-- The digest after the last byte.  The open pieces get a letter each, unless the rolling hash is zero. -/
def finish (p : Pass) (size : UInt64) : Digest :=
  if p.rolling.sum = 0 then
    ⟨size, String.ofList p.letters1.toList, String.ofList p.letters2.toList⟩
  else
    ⟨size, String.ofList (p.letters1.push (letter p.piece1)).toList,
      String.ofList (p.letters2.push (letter p.piece2)).toList⟩

end Pass

end Hallmark.FuzzyHash
