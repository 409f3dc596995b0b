import EventContracts.Fields
import EventContracts.Decimal.Double

/-!
# JSON values

Values keep the order of their object keys and the form of their numbers: a whole number and a
double are never equal. Equality of values (`Json.same`) does not look at the order of keys.
-/

namespace EventContracts

/-- A JSON number: a whole number of at most 64 bits (with sign only when it is negative), or a
double. -/
inductive Number where
  | whole (value : Int)
  | double (value : Double)
deriving DecidableEq, Repr, Inhabited

namespace Number

def same : Number → Number → Bool
  | whole a, whole b => a == b
  | double a, double b => a.same b
  | _, _ => false

def toDouble? : Number → Option Double
  | whole n => Double.ofInt? n
  | double d => some d

def isWhole : Number → Bool
  | whole _ => true
  | double _ => false

def greatestWhole : Int := Nat.pow 2 64 - 1

def leastWhole : Int := -Nat.pow 2 63

/-- The natural form of a double: a value without fraction below `2^53` is written as a whole
number, any other stays a double. -/
def ofDouble (d : Double) : Number :=
  match d.toInt? with
  | some n => if n.natAbs < Nat.pow 2 53 then whole n else double d
  | none => double d

end Number

/-- A JSON value. The keys of an object are pairwise different in every value that is built here. -/
inductive Json where
  | null
  | bool (value : Bool)
  | number (value : Number)
  | string (value : String)
  | array (items : List Json)
  | object (fields : List (String × Json))
deriving Repr, Inhabited

namespace Json

def whole (n : Int) : Json := number (.whole n)

def strings (items : List String) : Json := array (items.map string)

/-- A text, or null when there is none. -/
def ofText? : Option String → Json
  | some text => string text
  | none => null

/-- A natural number, or null when there is none. -/
def ofNat? : Option Nat → Json
  | some n => whole n
  | none => null

mutual

/-- Equality of values, whatever the order of keys. -/
def same : Json → Json → Bool
  | null, null => true
  | bool a, bool b => a == b
  | number a, number b => a.same b
  | string a, string b => a == b
  | array a, array b => sameItems a b
  | object a, object b => a.length == b.length && sameFields a b
  | _, _ => false
termination_by structural v => v

def sameItems : List Json → List Json → Bool
  | [], [] => true
  | a :: as, b :: bs => same a b && sameItems as bs
  | _, _ => false
termination_by structural items => items

/-- Whether every field of the first object is, with an equal value, in the second one. -/
def sameFields : List (String × Json) → List (String × Json) → Bool
  | [], _ => true
  | (key, a) :: rest, other =>
    (match Fields.get? key other with
      | some b => same a b
      | none => false) && sameFields rest other
termination_by structural fields => fields

end

/-- The field of an object. Other values have no fields. -/
def field? (name : String) : Json → Option Json
  | object fields => Fields.get? name fields
  | _ => none

end Json

end EventContracts
