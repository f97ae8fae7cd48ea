/-!
# Rolling hash

A checksum of the last seven bytes of a stream, brought up to date in constant time with each byte.
-/

namespace Hallmark.FuzzyHash

/-- The last seven bytes in a ring, `next` being the oldest, and three sums over them. -/
structure Rolling where
  window : Vector UInt8 7
  next : Fin 7
  h1 : UInt32
  h2 : UInt32
  h3 : UInt32
  deriving Repr, DecidableEq

namespace Rolling

/-- Nothing read yet; missing bytes count as zero. -/
def fresh : Rolling := ⟨Vector.replicate 7 0, 0, 0, 0, 0⟩

/-- Takes up one byte, which replaces the oldest. -/
def push (r : Rolling) (b : UInt8) : Rolling :=
  let oldest := r.window.get r.next
  { window := r.window.set r.next b
    next := r.next + 1
    h1 := r.h1 + b.toUInt32 - oldest.toUInt32
    h2 := r.h2 - r.h1 + 7 * b.toUInt32
    h3 := (r.h3 <<< 5) ^^^ b.toUInt32 }

def sum (r : Rolling) : UInt32 := r.h1 + r.h2 + r.h3

end Rolling

end Hallmark.FuzzyHash
