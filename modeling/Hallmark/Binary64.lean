/-!
# Binary floating point

Double-precision numbers as their 64 bits, with exact arithmetic on naturals behind every operation: a result is the
number nearest to the true quotient, and a tie goes to the even neighbour.
-/

namespace Hallmark

structure Binary64 where
  bits : UInt64
  deriving Repr, DecidableEq

namespace Binary64

def infinityBits : Nat := 0x7ff0000000000000

/-- The bit of the sign. -/
def signBit : Nat := 0x8000000000000000

/-- Fractions lie below this number; the exponent stands in the bits above them. -/
def fractionRange : Nat := 0x10000000000000

/-- One in units of the least positive number. -/
def unitsInOne : Nat := 1 <<< 1074

def magnitudeBits (x : Binary64) : Nat := x.bits.toNat % signBit

/-- True for numbers with a minus sign, minus zero among them. -/
def isNegative (x : Binary64) : Bool := signBit ≤ x.bits.toNat

/-- True for numbers that are neither infinite nor undefined. -/
def isFinite (x : Binary64) : Bool := x.magnitudeBits < infinityBits

def neg (x : Binary64) : Binary64 := ⟨x.bits ^^^ 0x8000000000000000⟩

/-- The absolute value of a finite number in units of 2^-1074, the least positive one. -/
def units (x : Binary64) : Nat :=
  let exponent := x.magnitudeBits / fractionRange
  let fraction := x.magnitudeBits % fractionRange
  if exponent = 0 then fraction else (fraction + fractionRange) <<< (exponent - 1)

/-- The natural number nearest to `num / den`; a tie goes to the even one. -/
def roundDiv (num den : Nat) : Nat :=
  let quotient := num / den
  let excess := 2 * (num % den)
  if den < excess ∨ (excess = den ∧ quotient % 2 = 1) then quotient + 1 else quotient

/-- The number nearest to `num / den`, infinity when that lies beyond the greatest finite one.

Counted in units of 2^-1074, a quotient below 2^53 is rounded to a whole number of them, and one with `k` more binary
digits to a whole number of 2^k units.  The bits of the result are then `k * 2^52` plus that number, and a carry out
of the fraction moves on into the exponent by itself. -/
def ofRatio (num den : Nat) : Binary64 :=
  let scaled := num * unitsInOne
  let k := Nat.log2 (scaled / den) - 52
  ⟨UInt64.ofNat (min (k * fractionRange + roundDiv scaled (den <<< k)) infinityBits)⟩

def ofNat (n : Nat) : Binary64 := ofRatio n 1

def ofFloat (x : Float) : Binary64 := ⟨x.toBits⟩

/-- The product of two finite positive numbers. -/
def mul (x y : Binary64) : Binary64 := ofRatio (x.units * y.units) (unitsInOne * unitsInOne)

/-- The quotient of two finite positive numbers. -/
def div (x y : Binary64) : Binary64 := ofRatio x.units y.units

end Binary64

end Hallmark
