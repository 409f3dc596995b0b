import EventContracts.Json.Value

/-!
# JSON number literals

A literal without fraction and exponent that fits 64 bits is a whole number; every other one is a
double. Its digits are gathered in 64 bits: digits that no longer fit are dropped, and each dropped
digit before the point counts as a power of ten. The gathered number is rounded to a double, which
is then multiplied or divided by the power of ten, rounding once more.
-/

namespace EventContracts

namespace Number

structure Literal where
  negative : Bool
  whole : List Nat
  fraction : List Nat
  hasFraction : Bool
  exponent : Option Int
deriving Repr

/-- The digits at the front of a text, and the rest of it. -/
def spanDigits (chars : List Char) : List Nat × List Char :=
  ((chars.takeWhile Char.isDigit).map fun c => c.toNat - '0'.toNat, chars.dropWhile Char.isDigit)

def ofDigits (digits : List Nat) : Nat := digits.foldl (fun n d => n * 10 + d) 0

/-- The exponent part of a literal, which may be missing; nothing may follow it. -/
def exponent? : List Char → Option (Option Int)
  | [] => some none
  | e :: rest =>
    if e = 'e' ∨ e = 'E' then
      let (negative, digits) := match rest with
        | '-' :: more => (true, more)
        | '+' :: more => (false, more)
        | more => (false, more)
      match spanDigits digits with
      | ([], _) => none
      | (ds, []) => some (some (if negative then -(ofDigits ds : Int) else ofDigits ds))
      | _ => none
    else none

/-- The parts of a literal; none when the text is not a number literal. -/
def literal? (chars : List Char) : Option Literal :=
  let (negative, chars) := match chars with
    | '-' :: rest => (true, rest)
    | rest => (false, rest)
  let (digits, rest) := spanDigits chars
  let wellStarted := match digits with
    | [] => false
    | [_] => true
    | d :: _ => d != 0
  if !wellStarted then none else
  match rest with
  | '.' :: rest =>
    let (fraction, rest) := spanDigits rest
    if fraction.isEmpty then none
    else (exponent? rest).map fun e => ⟨negative, digits, fraction, true, e⟩
  | rest => (exponent? rest).map fun e => ⟨negative, digits, [], false, e⟩

def gatherLimit : Nat := Nat.pow 2 64 - 1

/-- Append digits to a number while the result fits: the number, and how many digits were
dropped from the first one that did not fit. -/
def gather : Nat → List Nat → Nat × Nat
  | n, [] => (n, 0)
  | n, d :: rest =>
    if n * 10 + d ≤ gatherLimit then gather (n * 10 + d) rest else (n, rest.length + 1)

/-- A double times a power of ten, one rounding for every step of at most 308 places. -/
def scale? : Nat → Double → Int → Option Double
  | 0, d, _ => some d
  | fuel + 1, d, power =>
    if power ≥ 0 then
      if power ≤ 308 then (Double.ofInt? (Nat.pow 10 power.toNat)).bind d.mul?
      else if d.mantissa = 0 then some d else none
    else if power ≥ -308 then (Double.ofInt? (Nat.pow 10 (-power).toNat)).bind d.div?
    else if d.mantissa = 0 then some d
    else (Double.ofInt? (Nat.pow 10 308)).bind d.div? |>.bind fun d => scale? fuel d (power + 308)

/-- The double of the parts of a literal; none beyond the largest double. -/
def Literal.toDouble? (literal : Literal) : Option Double :=
  let (n, dropped) := gather 0 literal.whole
  let (significand, places) :=
    let (m, lost) := gather n literal.fraction
    (m, literal.fraction.length - lost)
  let power : Int := (dropped : Int) - places + literal.exponent.getD 0
  let start := Double.ofInt? significand
  -- three steps of 308 places take every double to zero
  (start.bind fun d => scale? 4 d power).map fun d => if literal.negative then d.negate else d

/-- The number of a literal; none beyond the largest double. -/
def Literal.number? (literal : Literal) : Option Number :=
  let n : Int := ofDigits literal.whole
  let signed := if literal.negative then -n else n
  if literal.hasFraction || literal.exponent.isSome || signed > greatestWhole ||
      signed < leastWhole || (literal.negative && n == 0) then
    literal.toDouble?.map .double
  else some (.whole signed)

end Number

end EventContracts
