import Hallmark.Binary64

/-!
# Decimal text of binary numbers

A number is written with the fewest digits that read back as the same number, and of several such digit strings with
the one nearest to it.
-/

namespace Hallmark

/-- The decimal number `significand * 10^exponent`. -/
structure Decimal where
  significand : Nat
  exponent : Int
  deriving Repr, DecidableEq

namespace Decimal

/-- The number of decimal digits of `n`. -/
def width (n : Nat) : Nat := (Nat.toDigits 10 n).length

/-- The exponent of the greatest power of ten that is at most `num / den`. -/
def magnitude (num den : Nat) : Int :=
  if den ≤ num then (width (num / den) : Int) - 1 else -(width ((den - 1) / num) : Int)

/-- The fraction `n * 10^exponent` as numerator and denominator. -/
def ratio (n : Nat) (exponent : Int) : Nat × Nat :=
  (n * Nat.pow 10 exponent.toNat, Nat.pow 10 (-exponent).toNat)

/-- The double-precision number nearest to a decimal. -/
def toBinary (d : Decimal) : Binary64 :=
  Binary64.ofRatio (ratio d.significand d.exponent).1 (ratio d.significand d.exponent).2

/-- The decimal at the step `exponent` that reads back as `x`: of the two neighbours of `x` the nearer one that does,
and the even one when both are equally near. -/
def atStep? (x : Binary64) (exponent : Int) : Option Decimal :=
  let (num, den) := ratio x.units (-exponent)
  let den := den * Binary64.unitsInOne
  let below : Decimal := ⟨num / den, exponent⟩
  let above : Decimal := ⟨num / den + 1, exponent⟩
  let nearer := if Binary64.roundDiv num den = num / den then [below, above] else [above, below]
  nearer.find? fun d => d.toBinary == x

/-- The shortest decimal of the absolute value of a finite number that is not zero. -/
def shortest (x : Binary64) : Decimal :=
  let x : Binary64 := ⟨UInt64.ofNat x.magnitudeBits⟩
  let top := magnitude x.units Binary64.unitsInOne
  ((List.range 17).findSome? fun (n : Nat) => atStep? x (top - n)).getD ⟨x.units, -1074⟩

/-- The absolute value of a finite number with exactly `places` digits behind the point, a tie going to the even
neighbour. -/
def fixed (x : Binary64) (places : Nat) : String :=
  let unit := Nat.pow 10 places
  let n := Binary64.roundDiv (x.units * unit) Binary64.unitsInOne
  let digits := (toString (n % unit)).toList
  toString (n / unit) ++ "."
    ++ String.ofList (List.replicate (places - digits.length) '0' ++ digits)

end Decimal

end Hallmark
