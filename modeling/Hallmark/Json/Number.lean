import Hallmark.Decimal

/-!
# Numbers in JSON

A number is kept by its digits.  Its value as a natural number or as a double-precision number is taken when a reader
asks for it.
-/

namespace Hallmark.Json

/-- The digits of a number: a whole part, an optional fraction, and an optional exponent with its sign, true for a
minus sign. -/
structure Number where
  negative : Bool
  whole : List Char
  fraction : List Char
  exponent : Option (Bool × List Char)
  deriving Repr, DecidableEq

namespace Number

/-- The digits at the start of a text, of which there must be one, and what follows them. -/
def digits? (cs : List Char) : Option (List Char × List Char) :=
  let run := cs.takeWhile Char.isDigit
  if run = [] then none else some (run, cs.dropWhile Char.isDigit)

/-- The fraction at the start of a text; no digits when there is no point. -/
def fraction? : List Char → Option (List Char × List Char)
  | '.' :: rest => digits? rest
  | rest => some ([], rest)

/-- The sign at the start of an exponent, true for a minus sign. -/
def exponentSign : List Char → Bool × List Char
  | '-' :: rest => (true, rest)
  | '+' :: rest => (false, rest)
  | rest => (false, rest)

/-- The exponent at the start of a text, if there is one. -/
def exponent? (cs : List Char) : Option (Option (Bool × List Char) × List Char) :=
  match cs with
  | c :: rest =>
    if c = 'e' ∨ c = 'E' then do
      let (negative, rest) := exponentSign rest
      let (run, rest) ← digits? rest
      some (some (negative, run), rest)
    else some (none, cs)
  | [] => some (none, [])

/-- The sign at the start of a number, true for a minus sign. -/
def sign : List Char → Bool × List Char
  | '-' :: rest => (true, rest)
  | rest => (false, rest)

/-- The number at the start of a text and what follows it.  Only a single zero starts with zero. -/
def scan? (cs : List Char) : Option (Number × List Char) := do
  let (negative, rest) := sign cs
  let (whole, rest) ← digits? rest
  if whole.head? = some '0' ∧ whole ≠ ['0'] then none
  let (fraction, rest) ← fraction? rest
  let (exponent, rest) ← exponent? rest
  some (⟨negative, whole, fraction, exponent⟩, rest)

/-- The number in writing.  The sign of an exponent is always written. -/
def text (n : Number) : List Char :=
  (if n.negative then ['-'] else [])
    ++ n.whole
    ++ (if n.fraction = [] then [] else '.' :: n.fraction)
    ++ (match n.exponent with
      | none => []
      | some (negative, run) => 'e' :: (if negative then '-' else '+') :: run)

def digitValue (c : Char) : Nat := c.toNat - '0'.toNat

/-- The value of a run of digits. -/
def digitsValue (run : List Char) : Nat := run.foldl (fun n c => 10 * n + digitValue c) 0

/-- A natural number without sign, fraction or exponent. -/
def natural? (n : Number) : Option Nat :=
  if n.negative || n.fraction ≠ [] || n.exponent.isSome then none else some (digitsValue n.whole)

def ofNat (n : Nat) : Number := ⟨false, Nat.toDigits 10 n, [], none⟩

/-- Extends a significand by digits as long as it stays below 2^64; the rest of the digits is returned too. -/
def extend (significand : Nat) : List Char → Nat × List Char
  | [] => (significand, [])
  | c :: rest =>
    let next := significand * 10 + digitValue c
    if next < UInt64.size then extend next rest else (significand, c :: rest)

/-- The significand of a number and the power of ten that goes with it before the exponent is added.  Digits that do
not fit in the significand are dropped. -/
def significand (n : Number) : Nat × Int :=
  let (first, dropped) := extend 0 n.whole
  let (all, unread) := extend first n.fraction
  (all, (dropped.length : Int) - (n.fraction.length - unread.length : Nat))

/-- The double-precision number nearest to a power of ten. -/
def tenPower (n : Nat) : Binary64 := .ofNat (Nat.pow 10 n)

/-- Divides by a power of ten, by 10^308 at a time. -/
def divideBy (x : Binary64) (exponent : Nat) : Binary64 :=
  if exponent ≤ 308 then x.div (tenPower exponent)
  else if x.units = 0 then x
  else divideBy (x.div (tenPower 308)) (exponent - 308)
termination_by exponent

/-- A significand with its power of ten, rounded first as a whole number and then after each product or quotient;
none when it is too great. -/
def scaled? (significand : Nat) (exponent : Int) : Option Binary64 :=
  let x := Binary64.ofNat significand
  if exponent < 0 then some (divideBy x exponent.natAbs)
  else if exponent ≤ 308 then
    let y := x.mul (tenPower exponent.natAbs)
    if y.isFinite then some y else none
  else if x.units = 0 then some x
  else none

/-- The greatest exponent that is taken by its value. -/
def maxExponent : Nat := 0x7fffffff

/-- The absolute value of a number in double precision; none when it is too great. -/
def magnitude? (n : Number) : Option Binary64 :=
  let (significand, base) := n.significand
  match n.exponent with
  | none => scaled? significand base
  | some (negative, run) =>
    let power := digitsValue run
    if power ≤ maxExponent then
      scaled? significand (if negative then base - power else base + power)
    else if significand ≠ 0 ∧ !negative then none
    else some (.ofNat 0)

/-- The value of a number in double precision; none when it is too great. -/
def binary? (n : Number) : Option Binary64 :=
  n.magnitude?.map fun x => if n.negative then x.neg else x

/-- The digits of `n` without the zeros at their end, and the number of those. -/
def trimmed (n : Nat) : List Char × Nat :=
  let all := Nat.toDigits 10 n
  let kept := (all.reverse.dropWhile (· = '0')).reverse
  (kept, all.length - kept.length)

/-- The number with the given digits times a power of ten.  It has no exponent when its decimal point stands at most
sixteen digits behind the first one or less than five zeros in front of it, and always has a fraction then.  Otherwise
one digit stands in front of the point. -/
def layout (digits : List Char) (exponent : Int) : Number :=
  let point : Int := digits.length + exponent
  if 0 ≤ exponent ∧ point ≤ 16 then
    ⟨false, digits ++ List.replicate exponent.toNat '0', ['0'], none⟩
  else if 0 < point ∧ point ≤ 16 then
    ⟨false, digits.take point.toNat, digits.drop point.toNat, none⟩
  else if -5 < point ∧ point ≤ 0 then
    ⟨false, ['0'], List.replicate (-point).toNat '0' ++ digits, none⟩
  else
    ⟨false, digits.take 1, digits.drop 1, some (point < 1, Nat.toDigits 10 (point - 1).natAbs)⟩

/-- A finite double-precision number with the fewest digits that read back. -/
def ofBinary (x : Binary64) : Number :=
  let unsigned :=
    if x.units = 0 then ⟨false, ['0'], ['0'], none⟩
    else
      let d := Decimal.shortest x
      let (digits, zeros) := trimmed d.significand
      layout digits (d.exponent + zeros)
  { unsigned with negative := x.isNegative }

end Number

end Hallmark.Json
