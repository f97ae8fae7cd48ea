import Hallmark.Bytes

/-!
# Message blocks

The digests of this folder read a message in blocks of sixteen 32-bit words.  A message is completed by a single
one bit, zeros, and its length in bits, so that blocks fill up exactly and no two messages share their blocks.
-/

namespace Hallmark.Digest

/-- The message followed by a one bit, the fewest zeros that complete a block, and its length in bits. -/
def padded (order : ByteOrder) (data : Bytes) : Bytes :=
  data.push 0x80
    ++ Array.replicate ((119 - data.size % 64) % 64) 0
    ++ (order.octets 8 (8 * data.size)).toArray

/-- The word at index `i` of a run of words. -/
def wordAt (order : ByteOrder) (data : Bytes) (i : Nat) : UInt32 :=
  let octet := fun k => (data.getD (4 * i + k) 0).toUInt32
  match order with
  | .little => octet 0 ||| octet 1 <<< 8 ||| octet 2 <<< 16 ||| octet 3 <<< 24
  | .big => octet 3 ||| octet 2 <<< 8 ||| octet 1 <<< 16 ||| octet 0 <<< 24

/-- Folds `step` over the sixteen-word blocks of the completed message. -/
def foldBlocks {σ : Type} (order : ByteOrder) (step : σ → Array UInt32 → σ) (first : σ) (data : Bytes) : σ :=
  let message := padded order data
  (List.range (message.size / 64)).foldl
    (fun state block => step state ((Array.range 16).map fun i => wordAt order message (16 * block + i))) first

/-- The hexadecimal text of a run of words. -/
def hexWords (order : ByteOrder) (words : List UInt32) : String :=
  Bytes.hex (words.flatMap fun w => order.octets 4 w.toNat).toArray

/-- Rotates a word to the left; `n` lies between 1 and 31. -/
def rotl (x n : UInt32) : UInt32 := (x <<< n) ||| (x >>> (32 - n))

/-- Rotates a word to the right; `n` lies between 1 and 31. -/
def rotr (x n : UInt32) : UInt32 := (x >>> n) ||| (x <<< (32 - n))

end Hallmark.Digest
