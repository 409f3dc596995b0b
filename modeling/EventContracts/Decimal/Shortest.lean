import EventContracts.Decimal.Double

/-!
# Shortest decimal digits

The fewest decimal digits that read back as a given double, and of those the nearest to it. A
decimal reads back when it lies in the interval of numbers that round to the double; both ends
belong to the interval exactly when the significand is even. On the grid of a given decimal
exponent only the two neighbours of the value need to be tried, because if any point of a grid
lies in the interval then so does one of them.
-/

namespace EventContracts

/-- The decimal `0.d₁d₂…dₖ · 10^point`, with `d₁` and `dₖ` different from zero unless the digits
are those of zero, a single `0`. -/
structure Digits where
  digits : List Nat
  point : Int
deriving DecidableEq, Repr

namespace Digits

/-- The decimal digits of a natural number, most significant first. -/
def ofNat (n : Nat) : List Nat := (Nat.toDigits 10 n).map fun c => c.toNat - '0'.toNat

/-- The numbers that round to one double, over a common denominator. -/
structure Interval where
  lower : Nat
  value : Nat
  upper : Nat
  den : Nat
  closed : Bool

/-- The numbers that round to a double other than zero. -/
def interval (d : Double) : Interval :=
  let narrow := d.mantissa == Nat.pow 2 52 && d.exponent > Double.leastExponent
  let m := d.mantissa * 4
  let (num, den) := Double.scaleRatio 1 4 d.exponent
  { lower := (if narrow then m - 1 else m - 2) * num
    value := m * num
    upper := (m + 2) * num
    den := den
    closed := d.mantissa % 2 == 0 }

def Interval.contains (i : Interval) (n : Nat) (power : Int) : Bool :=
  let a := if power ≥ 0 then n * Nat.pow 10 power.toNat * i.den else n * i.den
  let unit := if power ≥ 0 then 1 else Nat.pow 10 (-power).toNat
  if i.closed then decide (i.lower * unit ≤ a ∧ a ≤ i.upper * unit)
  else decide (i.lower * unit < a ∧ a < i.upper * unit)

/-- The neighbours of the interval's value on the grid of multiples of `10^power`: the multiple at
or below it, and whether the multiple above is nearer, farther or as far. -/
def Interval.neighbour (i : Interval) (power : Int) : Nat × Ordering :=
  let num := if power ≥ 0 then i.value else i.value * Nat.pow 10 (-power).toNat
  let den := if power ≥ 0 then i.den * Nat.pow 10 power.toNat else i.den
  (num / den, compare (2 * (num % den)) den)

/-- The best multiple of `10^power` that reads back: the nearer neighbour, an exact half going to
the even one. -/
def Interval.best? (i : Interval) (power : Int) : Option Nat :=
  let (below, side) := i.neighbour power
  let lowFits := i.contains below power && below != 0
  let highFits := i.contains (below + 1) power
  match lowFits, highFits with
  | false, false => none
  | true, false => some below
  | false, true => some (below + 1)
  | true, true => match side with
    | .lt => some below
    | .gt => some (below + 1)
    | .eq => some (if below % 2 == 0 then below else below + 1)

/-- An upper bound for the decimal point of the interval's value. -/
def Interval.pointBound (i : Interval) : Int :=
  let size (n : Nat) : Int := (Nat.toDigits 10 n).length
  size i.value - size i.den + 1

/-- Try grids from coarse to fine; the first with a fitting point wins. -/
def search (i : Interval) : Nat → Int → Nat × Int
  | 0, power => ((i.neighbour power).1, power)
  | fuel + 1, power =>
    match i.best? power with
    | some n => (n, power)
    | none => search i fuel (power - 1)

/-- Drop the zeros at the end. -/
def trimZeros (digits : List Nat) : List Nat := (digits.reverse.dropWhile (· == 0)).reverse

/-- The shortest digits of the magnitude of a double. -/
def shortest (d : Double) : Digits :=
  if d.mantissa = 0 then ⟨[0], 1⟩ else
  let i := interval d
  -- seventeen digits always suffice, and the bound is at most two places too high
  let (n, power) := search i 20 i.pointBound
  let digits := ofNat n
  ⟨trimZeros digits, power + digits.length⟩

end Digits

end EventContracts
