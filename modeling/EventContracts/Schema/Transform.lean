import EventContracts.Schema.Issue
import EventContracts.Decimal.Reading
import EventContracts.Text.Blank
import EventContracts.Text.UpperCase

/-!
# Transforms and refinements

Named functions on values. A transform gives a value, refuses with a message, or crashes; a
refinement says yes or no. Any function can be given a name; manifests know five transforms by
theirs.
-/

namespace EventContracts

/-- What comes of a transform that is applied to a value. -/
inductive Transform.Result where
  | given (value : Json)
  | refused (message : String)
  | crashed
deriving Repr

structure Transform where
  name : String
  run : Json → Transform.Result

namespace Transform

instance : Repr Transform := ⟨fun t _ => repr t.name⟩

def apply (t : Transform) (v : Json) : Except Failure Json :=
  match t.run v with
  | .given w => .ok w
  | .refused message => Failure.refuse (.rejected message)
  | .crashed => .error (.interrupted .crash)

/-- The number of characters of a text or of items of a list. -/
def length : Transform where
  name := "length"
  run
    | .string s => .given (.whole s.length)
    | .array items => .given (.whole items.length)
    | other => .refused ("cannot take the length of " ++ other.compact)

/-- A text as it is, and any other value as its JSON text. -/
def toText : Transform where
  name := "toString"
  run
    | .string s => .given (.string s)
    | other => .given (.string other.compact)

def trim : Transform where
  name := "trim"
  run
    | .string s => .given (.string (Text.trim s))
    | other => .given other

/-- The natural form of a number read from text; what is no double becomes null. -/
def ofDecimal (text : DecimalText) : Json :=
  match text with
  | .finite d => .number (.ofDouble d)
  | _ => .null

def parseNumber : Transform where
  name := "parseNumber"
  run
    | .number n => .given (.number n)
    | .string s =>
      match DecimalText.read (Text.trim s) with
      | some number => .given (ofDecimal number)
      | none => .refused (Text.ticked s ++ " is not a number")
    | other => .refused ("cannot parse " ++ other.compact ++ " as a number")

def toUpperCase : Transform where
  name := "toUpperCase"
  run
    | .string s => .given (.string (Text.upper s))
    | other => .refused ("cannot upper-case " ++ other.compact)

def builtins : List Transform := [length, toText, trim, parseNumber, toUpperCase]

def builtin? (name : String) : Option Transform := builtins.find? (·.name == name)

/-- One value, whatever is given. -/
def const (value : Json) : Transform := ⟨"const", fun _ => .given value⟩

/-- No value, whatever is given. -/
def fail (message : String) : Transform := ⟨"fail", fun _ => .refused message⟩

def identity : Transform := ⟨"identity", .given⟩

def wrap : Transform := ⟨"wrap", fun value => .given (.array [value])⟩

/-- A crash, whatever is given. -/
def crash : Transform := ⟨"panic", fun _ => .crashed⟩

end Transform

structure Refinement where
  name : String
  check : Json → Bool

namespace Refinement

instance : Repr Refinement := ⟨fun r _ => repr r.name⟩

def always : Refinement := ⟨"always", fun _ => true⟩

def never : Refinement := ⟨"never", fun _ => false⟩

def nonEmpty : Refinement where
  name := "nonEmpty"
  check
    | .string s => !s.isEmpty
    | _ => false

def positive : Refinement where
  name := "positive"
  check
    | .number n => n.toDouble?.any (Double.less (.zero false) ·)
    | _ => false

def notNull : Refinement where
  name := "notNull"
  check
    | .null => false
    | _ => true

/-- The refinements that have a name of their own. -/
def all : List Refinement := [always, never, nonEmpty, positive, notNull]

def ofName? (name : String) : Option Refinement := all.find? (·.name == name)

end Refinement

end EventContracts
