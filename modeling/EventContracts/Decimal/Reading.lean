import EventContracts.Decimal.Double

/-!
# Reading decimal text

Numbers in free text: a sign, digits with a point anywhere among them, and an exponent; or a word
for an infinity or for no number. Digits are rounded once, to the nearest double.
-/

namespace EventContracts

/-- What a text says about a number: a double, or something that no double is. -/
inductive DecimalText where
  | finite (value : Double)
  | infinite (negative : Bool)
  | undefined
deriving DecidableEq, Repr

namespace DecimalText

def toDouble? : DecimalText → Option Double
  | finite d => some d
  | _ => none

def ofDigits (digits : List Char) : Nat := digits.foldl (fun n c => n * 10 + (c.toNat - 48)) 0

/-- An exponent, after its mark: an optional sign and at least one digit, to the end. -/
def exponent? (chars : List Char) : Option Int :=
  let (negative, digits) := match chars with
    | '-' :: rest => (true, rest)
    | '+' :: rest => (false, rest)
    | rest => (false, rest)
  if digits.isEmpty || !digits.all Char.isDigit then none
  else some (if negative then -(ofDigits digits : Int) else ofDigits digits)

/-- The significand and the power of ten of an unsigned number. -/
def parts? (chars : List Char) : Option (Nat × Int) := do
  let whole := chars.takeWhile Char.isDigit
  let rest := chars.dropWhile Char.isDigit
  let (fraction, rest) := match rest with
    | '.' :: rest => (rest.takeWhile Char.isDigit, rest.dropWhile Char.isDigit)
    | rest => ([], rest)
  if whole.isEmpty && fraction.isEmpty then none
  else
    let power ← match rest with
      | [] => some 0
      | c :: rest => if c = 'e' ∨ c = 'E' then exponent? rest else none
    some (ofDigits (whole ++ fraction), power - fraction.length)

def readMagnitude (negative : Bool) (chars : List Char) : Option DecimalText :=
  let lower := chars.map Char.toLower
  if lower = "inf".toList ∨ lower = "infinity".toList then some (infinite negative)
  else if lower = "nan".toList then some undefined
  else (parts? chars).map fun (significand, power) =>
    match Double.ofDecimal? negative significand power with
    | some d => finite d
    | none => infinite negative

/-- Read a number; none when the whole text is not one. -/
def read (text : String) : Option DecimalText :=
  match text.toList with
  | '-' :: rest => readMagnitude true rest
  | '+' :: rest => readMagnitude false rest
  | rest => readMagnitude false rest

/-- Read a whole number: an optional sign and ASCII digits. -/
def readInt (text : String) : Option Int :=
  let (negative, digits) := match text.toList with
    | '-' :: rest => (true, rest)
    | '+' :: rest => (false, rest)
    | rest => (false, rest)
  if digits.isEmpty || !digits.all Char.isDigit then none
  else some (if negative then -(ofDigits digits : Int) else ofDigits digits)

end DecimalText

end EventContracts
