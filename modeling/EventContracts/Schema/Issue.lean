import EventContracts.Json.Writer
import EventContracts.Text.Quoted

/-!
# Validation failures

Why a value is refused, and where in the value.
-/

namespace EventContracts

namespace Json

/-- The word for the type of a value that may be absent. -/
def typeName : Option Json → String
  | none => "undefined"
  | some .null => "null"
  | some (.bool _) => "boolean"
  | some (.number _) => "number"
  | some (.string _) => "string"
  | some (.array _) => "array"
  | some (.object _) => "object"

end Json

inductive Issue.Cause where
  | expected (what : String) (received : Option Json)
  | tooShort (what : String) (least : Nat)
  | tooLong (what : String) (most : Nat)
  | format (name : String)
  | malformedPattern (pattern : String)
  | mismatch (pattern : String)
  | notFinite
  | notWhole
  | tooSmall
  | tooBig
  | notWholeText
  | literal (value : Json)
  | choice (values : List String)
  | elementCount (wanted found : Nat)
  | noMember
  | unmergeable
  | rejected (message : String)
  | refinement (name : String)
  | function
  | noValidator (kind : String)
deriving Repr

namespace Issue

def Cause.text : Cause → String
  | expected what received => s!"expected {what}, received {Json.typeName received}"
  | tooShort what least => s!"{what} shorter than {least}"
  | tooLong what most => s!"{what} longer than {most}"
  | format name => s!"invalid {name}"
  | malformedPattern pattern => s!"invalid pattern {pattern}"
  | mismatch pattern => s!"does not match {pattern}"
  | notFinite => "expected a finite number"
  | notWhole => "expected an integer"
  | tooSmall => "number too small"
  | tooBig => "number too big"
  | notWholeText => "expected an integer string"
  | literal value => "expected literal " ++ value.compact
  | choice values => "expected one of " ++ Text.quotedList values
  | elementCount wanted found => s!"expected {wanted} tuple elements, received {found}"
  | noMember => "no union member matched"
  | unmergeable => "intersection results could not be merged"
  | rejected message => message
  | refinement name => "refinement " ++ Text.ticked name ++ " failed"
  | function => "functions cannot be parsed from data"
  | noValidator kind => "no validator for kind " ++ Text.ticked kind

end Issue

/-- A refusal: the keys and positions that lead to the place, and the rule that is broken there. -/
structure Issue where
  path : List String
  cause : Issue.Cause
deriving Repr

namespace Issue

/-- An issue at the root of a value. -/
def of (cause : Cause) : Issue := ⟨[], cause⟩

/-- The same issue seen from one level further out. -/
def under (segment : String) (issue : Issue) : Issue := { issue with path := segment :: issue.path }

def message (issue : Issue) : String :=
  String.join (issue.path.map (· ++ ": ")) ++ issue.cause.text

end Issue

/-- Why a computation stopped without an answer: a transform crashed, or the allowed depth of
references was used up. -/
inductive Interruption where
  | crash
  | unfinished
deriving DecidableEq, Repr

inductive Failure where
  | invalid (issue : Issue)
  | interrupted (cause : Interruption)
deriving Repr

/-- What validation gives: a value, or nothing where an absent value is allowed. -/
abbrev Outcome := Except Failure (Option Json)

namespace Failure

def refuse {α : Type} (cause : Issue.Cause) : Except Failure α := .error (.invalid (.of cause))

/-- The same result seen from one level further out. -/
def under {α : Type} (segment : String) : Except Failure α → Except Failure α
  | .error (.invalid issue) => .error (.invalid (issue.under segment))
  | result => result

end Failure

end EventContracts
