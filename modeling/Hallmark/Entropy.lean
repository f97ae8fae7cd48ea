import Hallmark.Binary64
import Hallmark.Bytes

/-!
# Entropy

The Shannon entropy of a byte array in bits per byte, between 0 for a single repeated byte and 8 when all bytes are
equally frequent.
-/

namespace Hallmark.Entropy

def histogram (data : Bytes) : Array Nat :=
  data.foldl (fun counts b => counts.modify b.toNat (· + 1)) (Array.replicate 256 0)

/-- The entropy, summed over the byte values in ascending order. -/
def shannon (data : Bytes) : Float :=
  if data.isEmpty then 0
  else
    let total := Float.ofNat data.size
    (histogram data).foldl
      (fun sum count =>
        if count = 0 then sum
        else
          let share := Float.ofNat count / total
          sum - share * share.log2)
      0

/-- The entropy with two decimals; a half is rounded away from zero. -/
def rounded (data : Bytes) : Binary64 :=
  .ofFloat ((shannon data * 100).round / 100)

end Hallmark.Entropy
