/-!
# Instants

Points in time, read from the timestamp text of internet protocols and written in universal time.
A leap second belongs to the second before it: its fraction lies beyond one whole second.
-/

namespace EventContracts

/-- A point in time: whole seconds since the start of 1970 in universal time, and nanoseconds. A
count of nanoseconds from `10^9` on stands for a leap second after the given one. -/
structure Instant where
  seconds : Int
  nanos : Nat
deriving DecidableEq, Repr

namespace Instant

/-- Whether a year has a twenty-ninth of February. -/
def isLeapYear (year : Int) : Bool := year % 4 == 0 && (year % 100 != 0 || year % 400 == 0)

def daysInMonth (year : Int) (month : Nat) : Nat :=
  if month = 2 then (if isLeapYear year then 29 else 28)
  else if month = 4 ∨ month = 6 ∨ month = 9 ∨ month = 11 then 30
  else 31

/-- Days from the start of 1970 to a date. Years are counted from March, so that the leap day is
the last day of a year. -/
def daysFromDate (year : Int) (month day : Nat) : Int :=
  let y : Int := if month ≤ 2 then year - 1 else year
  let m : Int := if month ≤ 2 then month + 9 else month - 3
  365 * y + y / 4 - y / 100 + y / 400 + (153 * m + 2) / 5 + day - 719469

/-- The date of a day, counted from the start of 1970. -/
def dateOfDays (days : Int) : Int × Nat × Nat :=
  let z := days + 719468
  let era := z / 146097
  let dayOfEra := z % 146097
  let yearOfEra := (dayOfEra - dayOfEra / 1460 + dayOfEra / 36524 - dayOfEra / 146096) / 365
  let dayOfYear := dayOfEra - (365 * yearOfEra + yearOfEra / 4 - yearOfEra / 100)
  let m := (5 * dayOfYear + 2) / 153
  let day := dayOfYear - (153 * m + 2) / 5 + 1
  let month := if m < 10 then m + 3 else m - 9
  let year := yearOfEra + era * 400 + (if month ≤ 2 then 1 else 0)
  (year, month.toNat, day.toNat)

/-- Exactly `n` decimal digits at the front of a text, as a number. -/
def takeDigits : Nat → List Char → Option (Nat × List Char)
  | 0, rest => some (0, rest)
  | n + 1, c :: rest =>
    if c.isDigit then
      (takeDigits n rest).map fun (low, rest) => ((c.toNat - 48) * Nat.pow 10 n + low, rest)
    else none
  | _ + 1, [] => none

def takeChar (expected : Char) : List Char → Option (List Char)
  | c :: rest => if c = expected then some rest else none
  | [] => none

/-- The fraction of a second, at least one digit: the first nine count. -/
def takeFraction (chars : List Char) : Option (Nat × List Char) :=
  let digits := chars.takeWhile Char.isDigit
  if digits.isEmpty then none else
  let kept := digits.take 9 ++ List.replicate (9 - digits.length) '0'
  some (kept.foldl (fun n c => n * 10 + (c.toNat - 48)) 0, chars.dropWhile Char.isDigit)

/-- The distance from universal time, in seconds; nothing may follow it. -/
def readOffset : List Char → Option Int
  | ['Z'] => some 0
  | ['z'] => some 0
  | sign :: rest => do
    let negative ← if sign = '+' then some false
      else if sign = '-' ∨ sign = Char.ofNat 0x2212 then some true else none
    let (hours, rest) ← takeDigits 2 rest
    let rest ← takeChar ':' rest
    let (minutes, rest) ← takeDigits 2 rest
    if rest ≠ [] ∨ hours > 23 ∨ minutes > 59 then none
    else
      let distance : Int := hours * 3600 + minutes * 60
      some (if negative then -distance else distance)
  | [] => none

/-- Read a timestamp: date, `T`, `t` or one space, time with optional fraction, and the distance
from universal time. -/
def read (text : String) : Option Instant := do
  let (year, rest) ← takeDigits 4 text.toList
  let rest ← takeChar '-' rest
  let (month, rest) ← takeDigits 2 rest
  let rest ← takeChar '-' rest
  let (day, rest) ← takeDigits 2 rest
  let rest ← match rest with
    | c :: rest => if c = 'T' ∨ c = 't' ∨ c = ' ' then some rest else none
    | [] => none
  let (hour, rest) ← takeDigits 2 rest
  let rest ← takeChar ':' rest
  let (minute, rest) ← takeDigits 2 rest
  let rest ← takeChar ':' rest
  let (second, rest) ← takeDigits 2 rest
  let (nanos, rest) ← match rest with
    | '.' :: rest => takeFraction rest
    | rest => some (0, rest)
  let offset ← readOffset rest
  if month < 1 ∨ month > 12 ∨ day < 1 ∨ day > daysInMonth year month ∨ hour > 23 ∨ minute > 59 ∨
      second > 60 then none
  else
    let (second, nanos) := if second = 60 then (59, nanos + 1000000000) else (second, nanos)
    let ofDay : Int := hour * 3600 + minute * 60 + second
    some ⟨daysFromDate year month day * 86400 + ofDay - offset, nanos⟩

/-- The first and the last instant that can be given in milliseconds. -/
def millisecondRange : Int × Int := (-8334601228800000, 8210266876799999)

/-- The instant a number of milliseconds after the start of 1970. -/
def ofMilliseconds (n : Int) : Option Instant :=
  if millisecondRange.1 ≤ n ∧ n ≤ millisecondRange.2 then
    some ⟨n / 1000, (n % 1000).toNat * 1000000⟩
  else none

def padded (width n : Nat) : String :=
  let digits := toString n
  String.ofList (List.replicate (width - digits.length) '0') ++ digits

/-- A year: four digits, and a sign when it lies outside of them. -/
def yearText (year : Int) : String :=
  if 0 ≤ year ∧ year ≤ 9999 then padded 4 year.toNat
  else (if year < 0 then "-" else "+") ++ padded 4 year.natAbs

/-- A fraction of a second with three, six or nine digits, the fewest that are exact. -/
def fractionText (nanos : Nat) : String :=
  if nanos = 0 then ""
  else if nanos % 1000000 = 0 then "." ++ padded 3 (nanos / 1000000)
  else if nanos % 1000 = 0 then "." ++ padded 6 (nanos / 1000)
  else "." ++ padded 9 nanos

/-- The timestamp of an instant in universal time. -/
def text (t : Instant) : String :=
  let (year, month, day) := dateOfDays (t.seconds / 86400)
  let ofDay := (t.seconds % 86400).toNat
  let leap := t.nanos ≥ 1000000000
  let second := ofDay % 60 + (if leap then 1 else 0)
  let nanos := if leap then t.nanos - 1000000000 else t.nanos
  yearText year ++ "-" ++ padded 2 month ++ "-" ++ padded 2 day ++ "T" ++ padded 2 (ofDay / 3600) ++
    ":" ++ padded 2 (ofDay / 60 % 60) ++ ":" ++ padded 2 second ++ fractionText nanos ++ "+00:00"

end Instant

end EventContracts
