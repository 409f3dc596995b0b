import EventContracts.Schema.Validation

/-!
# Probing transforms

What a transform gives is not declared, so it is tried: the schema is run on a sample of its
declared input, and a text, number or truth value as result tells the type. A transform that
crashes is caught here.
-/

namespace EventContracts

inductive SampleType where
  | integer
  | number
  | bigint
  | string
  | boolean
  | object
  | array
  | null
  | date
deriving DecidableEq, Repr

namespace SampleType

/-- The sample type of a documented type name and format. -/
def ofDepicted? (typeName : String) (format : Option String) : Option SampleType :=
  if format = some "date-time" then some date
  else match typeName with
    | "integer" => some integer
    | "number" => some number
    | "string" => some string
    | "boolean" => some boolean
    | "object" => some object
    | "array" => some array
    | "null" => some null
    | _ => none

/-- The sample: the plainest value of its type. -/
def sample : SampleType → Json
  | integer => .whole 0
  | number => .whole 0
  | bigint => .whole 0
  | string => .string ""
  | boolean => .bool false
  | object => .object []
  | array => .array []
  | null => .null
  | date => .string (Instant.text ⟨0, 0⟩)

end SampleType

/-- A primitive type that a transform was seen to give. -/
inductive Primitive where
  | number
  | string
  | boolean
deriving DecidableEq, Repr

namespace Primitive

def name : Primitive → String
  | number => "number"
  | string => "string"
  | boolean => "boolean"

end Primitive

inductive ProbeError where
  | rejected (issue : Issue)
  | notPrimitive (result : Option Json)
  | crashed
deriving Repr

namespace ProbeError

def message : ProbeError → String
  | rejected issue => "transform rejected the sample: " ++ issue.message
  | notPrimitive result => s!"transform produced {Json.typeName result}, not a primitive"
  | crashed => "transform panicked"

end ProbeError

/-- The type of what a schema made of a sample. Only a validation that does not end within the
allowed depth is not caught. -/
def Outcome.probed : Outcome → Except Interruption (Except ProbeError Primitive)
  | .ok (some (.number _)) => .ok (.ok .number)
  | .ok (some (.string _)) => .ok (.ok .string)
  | .ok (some (.bool _)) => .ok (.ok .boolean)
  | .ok other => .ok (.error (.notPrimitive other))
  | .error (.invalid issue) => .ok (.error (.rejected issue))
  | .error (.interrupted .crash) => .ok (.error .crashed)
  | .error (.interrupted .unfinished) => .error .unfinished

/-- Run a schema on a sample and tell the type of the result. -/
def Library.probe (library : Library) (node : Node) (sample : Json) :
    Except Interruption (Except ProbeError Primitive) :=
  (library.validate node (some sample)).probed

end EventContracts
