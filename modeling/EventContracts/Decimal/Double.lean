/-!
# Finite double-precision numbers

A number `±m · 2^e` of the binary64 format, as exact data. Every value is a whole number of units
of `2^-1074`, and order, equality and wholeness are decided on that whole number. Results are
rounded to the nearest value, a half going to the even significand; a result beyond the largest
value is no number.
-/

namespace EventContracts

/-- The finite value `±mantissa · 2^exponent`. The values built here are in the unique form of the
format: `2^52 ≤ mantissa < 2^53`, or `mantissa < 2^52` with the least exponent `-1074`. -/
structure Double where
  negative : Bool
  mantissa : Nat
  exponent : Int
deriving DecidableEq, Repr, Inhabited

namespace Double

def leastExponent : Int := -1074

def greatestExponent : Int := 971

def zero (negative : Bool) : Double := ⟨negative, 0, leastExponent⟩

def units (d : Double) : Int :=
  let magnitude : Nat := d.mantissa * Nat.pow 2 (d.exponent - leastExponent).toNat
  if d.negative then -(magnitude : Int) else magnitude

/-- Equality of values: the two zeros are one value. -/
def same (a b : Double) : Bool := a.units == b.units

def less (a b : Double) : Bool := decide (a.units < b.units)

def atMost (a b : Double) : Bool := decide (a.units ≤ b.units)

def unitsPerOne : Int := Nat.pow 2 1074

def isWhole (d : Double) : Bool := d.units % unitsPerOne == 0

/-- The whole number equal to the value, when there is one. -/
def toInt? (d : Double) : Option Int :=
  if d.isWhole then some (d.units / unitsPerOne) else none

def negate (d : Double) : Double := { d with negative := !d.negative }

/-- The quotient of two natural numbers to the nearest whole number, a half to the even one. -/
def roundQuotient (num den : Nat) : Nat :=
  let q := num / den
  let r := num % den
  if 2 * r > den || (2 * r == den && q % 2 == 1) then q + 1 else q

/-- A ratio times a power of two, as a ratio. -/
def scaleRatio (num den : Nat) (power : Int) : Nat × Nat :=
  if power ≥ 0 then (num * Nat.pow 2 power.toNat, den) else (num, den * Nat.pow 2 (-power).toNat)

/-- The value nearest to `±num / den`, none when it is beyond the largest one. -/
def ofRatio? (negative : Bool) (num den : Nat) : Option Double :=
  if num = 0 then some (zero negative) else
  -- the quotient scaled by `2^-guess` lies between `2^52` and `2^54`
  let guess : Int := (num.log2 : Int) - den.log2 - 53
  let (n, d) := scaleRatio num den (-guess)
  let fitting := if n / d ≥ Nat.pow 2 53 then guess + 1 else guess
  let exponent := max fitting leastExponent
  let (n, d) := scaleRatio num den (-exponent)
  let rounded := roundQuotient n d
  let result : Double :=
    if rounded = Nat.pow 2 53 then ⟨negative, Nat.pow 2 52, exponent + 1⟩
      else ⟨negative, rounded, exponent⟩
  if result.exponent > greatestExponent then none else some result

def ofInt? (n : Int) : Option Double := ofRatio? (n < 0) n.natAbs 1

def ratio (d : Double) : Nat × Nat := scaleRatio d.mantissa 1 d.exponent

def mul? (a b : Double) : Option Double :=
  let (n, d) := a.ratio
  let (n', d') := b.ratio
  ofRatio? (a.negative != b.negative) (n * n') (d * d')

/-- The value nearest to the quotient; none for a divisor zero. -/
def div? (a b : Double) : Option Double :=
  let (n, d) := a.ratio
  let (n', d') := b.ratio
  if n' = 0 then none else ofRatio? (a.negative != b.negative) (n * d') (d * n')

/-- The value nearest to `±significand · 10^power`. Powers that no digit string of `significand`
could bring back into the range are cut off first. -/
def ofDecimal? (negative : Bool) (significand : Nat) (power : Int) : Option Double :=
  if significand = 0 then some (zero negative) else
  let size : Int := (Nat.toDigits 10 significand).length
  if power + size > 400 then none
  else if power + size < -400 then some (zero negative)
  else if power ≥ 0 then ofRatio? negative (significand * Nat.pow 10 power.toNat) 1
  else ofRatio? negative significand (Nat.pow 10 (-power).toNat)

end Double

end EventContracts
