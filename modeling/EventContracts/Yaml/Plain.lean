import EventContracts.Decimal.Reading
import EventContracts.Json.Value
import EventContracts.Yaml.Scalar

/-!
# Plain scalars

What the text of a plain scalar means: nothing, a truth value, a number, or just the text. Decimal
digits after a leading zero are no number.
-/

namespace EventContracts.Yaml

/-- The meaning of a plain scalar. An infinity, or a mark for what is not a number, is
`undefined`. -/
inductive Plain where
  | null
  | bool (value : Bool)
  | whole (value : Int)
  | double (value : Double)
  | undefined
  | text
deriving DecidableEq, Repr

namespace Plain

def isNullWord (text : String) : Bool := ["null", "Null", "NULL", "~"].contains text

def truth? (text : String) : Option Bool :=
  if ["true", "True", "TRUE"].contains text then some true
  else if ["false", "False", "FALSE"].contains text then some false
  else none

/-- The natural number of at least one digit to a base of at most sixteen. -/
def ofBase? (base : Nat) (digits : List Char) : Option Nat :=
  if digits.isEmpty then none
  else digits.foldlM (fun n c => do
    let digit ← hexValue? c
    if digit < base then some (n * base + digit) else none) 0

/-- Whether decimal digits start with a zero that is not the only one of them. -/
def hasLeadingZero (digits : List Char) : Bool :=
  digits.length > 1 && digits.head? == some '0' && digits.all Char.isDigit

/-- A natural number: decimal, or with a sign for its base. -/
def magnitude? (chars : List Char) : Option Nat :=
  match chars with
  | '0' :: 'x' :: digits => ofBase? 16 digits
  | '0' :: 'o' :: digits => ofBase? 8 digits
  | '0' :: 'b' :: digits => ofBase? 2 digits
  | digits => if hasLeadingZero digits then none else ofBase? 10 digits

/-- A whole number without a minus sign, up to a limit. -/
def unsigned? (limit : Nat) (chars : List Char) : Option Nat := do
  let n ← magnitude? (if chars.head? == some '+' then chars.tail else chars)
  if n ≤ limit then some n else none

def whole? (chars : List Char) : Option Int :=
  match chars with
  | '-' :: digits => do
    let n ← magnitude? digits
    if n ≤ Nat.pow 2 127 then some (-(n : Int)) else none
  | chars => (unsigned? (Nat.pow 2 128 - 1) chars).map Int.ofNat

/-- A text without its plus sign, none when another sign follows it. -/
def withoutPlus? (chars : List Char) : Option (List Char) :=
  match chars with
  | '+' :: rest => if rest.head? == some '+' || rest.head? == some '-' then none else some rest
  | chars => some chars

/-- Whether a text is a word after a point, in one of three cases. -/
def isPointWord (lower upper mixed : String) (chars : List Char) : Bool :=
  [lower, upper, mixed].any fun word => chars == '.' :: word.toList

/-- A number with a fraction or an exponent, an infinity, or a mark for what is not a number. -/
def double? (chars : List Char) : Option Plain := do
  let unsigned ← withoutPlus? chars
  let magnitude := if unsigned.head? == some '-' then unsigned.tail else unsigned
  if isPointWord "inf" "INF" "Inf" magnitude || isPointWord "nan" "NAN" "NaN" chars then
    some undefined
  else ((DecimalText.read (String.ofList unsigned)).bind DecimalText.toDouble?).map double

def withoutSign (chars : List Char) : List Char :=
  if chars.head? == some '+' || chars.head? == some '-' then chars.tail else chars

/-- The meaning of a number, or just of a text. -/
def ofNumber (chars : List Char) : Plain :=
  match whole? chars with
  | some n => whole n
  | none => if hasLeadingZero (withoutSign chars) then text else (double? chars).getD text

def ofText (content : String) : Plain :=
  if content.isEmpty || isNullWord content then null
  else match truth? content with
    | some b => bool b
    | none => ofNumber content.toList

/-- The value of a meaning, given the text. Whole numbers of more than 64 bits have none. -/
def toJson? (content : String) : Plain → Option Json
  | null => some .null
  | bool b => some (.bool b)
  | whole n =>
    if Number.leastWhole ≤ n ∧ n ≤ Number.greatestWhole then some (.whole n) else none
  | double d => some (.number (.double d))
  | undefined => some .null
  | text => some (.string content)

end Plain

end EventContracts.Yaml
