import EventContracts.Depiction
import EventContracts.Document.SchemaObject
import EventContracts.Schema.Probe

/-!
# Documented schemas

The view of a schema in an event document. Each kind has its own schema object; the notes of a node,
and whether it accepts null, are laid over the object of its kind. A schema that a reference stands
for becomes a component of the document.
-/

namespace EventContracts

namespace StringChecks

def toSchema (checks : StringChecks) : SchemaObject :=
  { SchemaObject.ofType "string" with
    format := checks.format.map StringFormat.name
    minLength := checks.minLength
    maxLength := checks.maxLength
    pattern := checks.pattern }

end StringChecks

namespace NumberChecks

def toSchema (checks : NumberChecks) : SchemaObject :=
  let bound (d : Option Double) : Option Json := d.map fun d => .number (.ofDouble d)
  { SchemaObject.ofType (if checks.whole then "integer" else "number") with
    format := some (if checks.whole then "int64" else "double")
    minimum := bound checks.minimum
    maximum := bound checks.maximum
    exclusiveMinimum := bound checks.exclusiveMinimum
    exclusiveMaximum := bound checks.exclusiveMaximum }

end NumberChecks

namespace Json

/-- The name of the type of a value in a schema object. -/
def schemaType : Json → String
  | null => "null"
  | bool _ => "boolean"
  | number n => if n.isWhole then "integer" else "number"
  | string _ => "string"
  | array _ => "array"
  | object _ => "object"

/-- A value as a key: a text as it is, any other value by its JSON text. -/
def keyText : Json → String
  | string s => s
  | other => other.compact

end Json

namespace Node

def literal? (node : Node) : Option Json :=
  match node.kind with
  | .literal value => some value
  | _ => none

/-- The keys that a schema of keys lists one by one. -/
def listedKeys? (node : Node) : Option (List String) :=
  match node.kind with
  | .choice values => some values
  | .literal value => some [value.keyText]
  | .union options => options.mapM fun option => option.literal?.map Json.keyText
  | _ => none

end Node

namespace SchemaObject

/-- Allow null as well. A schema that stands for another one is left alone. -/
def orNull (s : SchemaObject) : SchemaObject :=
  if s.isReference then s
  else match s.typeNames with
    | some t => { s with typeNames := some t.withNull }
    | none => { oneOf := some [s, ofType "null"] }

/-- The fields that do not keep a schema from being merged with another one. -/
def mergeableFields : List String := ["type", "properties", "required", "examples"]

def isMergeable (s : SchemaObject) : Bool :=
  s.typeNames == some (.one "object") &&
    s.toFields.all fun field => mergeableFields.contains field.1

/-- Pairs of example objects merged into one, each of the first with each of the second. -/
def combineExamples (left right : List Json) : List Json :=
  if left.isEmpty then right
  else if right.isEmpty then left
  else left.flatMap fun l => right.filterMap fun r =>
    match l, r with
    | .object a, .object b => some (.object (Fields.merge a b))
    | _, _ => none

/-- The properties of two schemas, merged as values. None when they do not fit together. -/
def mergeProperties? (left right : List (String × SchemaObject)) :
    Option (List (String × SchemaObject)) := do
  let merged ← Json.mergeFields (fieldsOfProperties left) (fieldsOfProperties right)
  let pairs ← pairsOf? (Json.writtenFields merged)
  return Fields.ofPairs pairs

/-- Names of two lists, those of the second only when they are new. -/
def unionNames (left right : List String) : List String :=
  right.foldl (fun names name => if names.contains name then names else names ++ [name]) left

/-- Two schemas of plain objects as one. None when they do not fit together. -/
def flatten? (left right : SchemaObject) : Option SchemaObject :=
  if left.isMergeable && right.isMergeable then do
    let properties ←
      if left.properties.isSome || right.properties.isSome then
        (mergeProperties? (left.properties.getD []) (right.properties.getD [])).map some
      else some none
    return { ofType "object" with
      properties := properties
      required :=
        if left.required.isSome || right.required.isSome then
          some (unionNames (left.required.getD []) (right.required.getD []))
        else none
      examples :=
        if left.examples.isSome || right.examples.isSome then
          some (combineExamples (left.examples.getD []) (right.examples.getD []))
        else none }
  else none

def intersect (left right : SchemaObject) : SchemaObject :=
  (flatten? left right).getD { allOf := some [left, right] }

/-- The schema of a record of listed keys: all of them are required. -/
def ofKeys (keys : List String) (value : SchemaObject) : SchemaObject :=
  { ofType "object" with
    properties := some (Fields.ofPairs (keys.map fun key => (key, value)))
    required := some keys }

/-- The schema of what a preprocessed value has to be: it is marked. -/
def preprocessed (s : SchemaObject) : SchemaObject :=
  if s.isReference then s
  else
    let declared := match s.format, s.typeNames with
      | some format, _ => format
      | none, some t => String.intercalate ", " t.names
      | none, none => "any"
    { s with typeNames := none, format := some (declared ++ " (preprocessed)") }

/-- The sample that a transform of this schema is tried on. -/
def sampleType? (s : SchemaObject) : Option SampleType :=
  (s.typeNames.bind TypeNames.first?).bind fun t => SampleType.ofDepicted? t s.format

/-- What is known about the result of a transform that was tried. -/
def ofProbe : Except ProbeError Primitive → SchemaObject
  | .ok primitive => ofType primitive.name
  | .error _ => any

def componentPath (name : String) : String := "#/components/schemas/" ++ name

end SchemaObject

namespace Document

abbrev View (α : Type) := Depicting SchemaObject α

abbrev Path (α : Type) := Walk SchemaObject α

/-- What an example shows when its schema accepts it: itself, or, for output, what the schema makes
of it. -/
def shown (direction : Direction) (sample : Json) : Outcome → Except Interruption (List Json)
  | .ok result => .ok [if direction.isOutput then result.getD .null else sample]
  | .error (.invalid _) => .ok []
  | .error (.interrupted cause) => .error cause

/-- What the examples of a node show. -/
def validExamples (node : Node) (direction : Direction) : List Json → Path (List Json)
  | [] => return []
  | sample :: samples => do
    let first ← Walk.check (shown direction sample (← Walk.outcome node (some sample)))
    let more ← validExamples node direction samples
    return first ++ more

/-- Whether the schema of a node allows null as well. What a coercing schema gives is never null,
even though it accepts null. -/
def nullable (node : Node) (direction : Direction) : Path Bool :=
  if direction.isOutput && node.coerces then return false else Walk.accepts node (some .null)

/-- Lay what is said of a node over its schema object. A schema that stands for another one stays
as it is. -/
def annotate (node : Node) (direction : Direction) (s : SchemaObject) : Path SchemaObject := do
  if s.isReference then return s
  let nullable ← nullable node direction
  let examples ← validExamples node direction node.notes.examples
  return s.overlay {
    description := node.notes.description
    typeNames := if nullable then s.typeNames.map TypeNames.withNull else none
    examples := if examples.isEmpty then none else some examples }

/-- The schema of a transformed value: what the transform gives when it is tried on a sample. -/
def transformed (node : Node) (input : SchemaObject) : Path SchemaObject :=
  match input.sampleType? with
  | none => return .any
  | some t => return .ofProbe (← Walk.probe node t.sample)

mutual

/-- The walk over a node. -/
def walk (direction : Direction) : Node → Path SchemaObject
  | .mk kind notes =>
    let node := Node.mk kind notes
    let layer : Path SchemaObject := match kind with
      | .string checks => pure checks.toSchema
      | .number checks => pure checks.toSchema
      | .bigint _ => pure { SchemaObject.ofType "integer" with format := some "bigint" }
      | .boolean _ => pure (.ofType "boolean")
      | .date _ => pure { SchemaObject.ofType "string" with format := some "date-time" }
      | .null => pure (.ofType "null")
      | .any => pure .any
      | .unknown => pure .any
      | .literal value =>
        pure { SchemaObject.ofType value.schemaType with choices := some [value] }
      | .choice values =>
        pure { SchemaObject.ofType "string" with choices := some (values.map .string) }
      | .array item minItems maxItems => do
        let item ← walk direction item
        pure { SchemaObject.ofType "array" with
          items := some (.each item), minItems := minItems, maxItems := maxItems }
      | .tuple items rest => do
        let items ← walkItems direction items
        let further ← match rest with
          | some rest => do pure (Further.schema (← walk direction rest))
          | none => pure (.allowed false)
        pure { SchemaObject.ofType "array" with
          items := some (.positional items), additionalItems := some further }
      | .object shape => do
        let (properties, required) ← walkShape direction shape
        pure { SchemaObject.ofType "object" with
          properties := some properties
          required := if required.isEmpty then none else some required }
      | .record key value => match key.listedKeys? with
        | none => do
          let value ← walk direction value
          pure { SchemaObject.ofType "object" with additionalProperties := some (.schema value) }
        | some [] => pure (.ofType "object")
        | some keys => do pure (.ofKeys keys (← walk direction value))
      | .union options => do
        let options ← walkItems direction options
        pure { oneOf := some options }
      | .taggedUnion discriminator options => do
        let options ← walkItems direction options
        pure { oneOf := some options, discriminator := some discriminator }
      | .intersection left right => do
        let left ← walk direction left
        let right ← walk direction right
        pure (left.intersect right)
      | .optional inner => walk direction inner
      | .readonly inner => walk direction inner
      | .branded inner _ => walk direction inner
      | .fallback inner _ => walk direction inner
      | .nullable inner => do pure (← walk direction inner).orNull
      | .default inner value => do pure { (← walk direction inner) with default := some value }
      | .effect inner effect => do
        let input ← walk direction inner
        match effect, direction with
        | .transform _, .output => if input.isReference then pure input else transformed node input
        | _, _ => pure input
      | .preprocess inner _ => do
        let input ← walk direction inner
        pure (if direction.isOutput then input else input.preprocessed)
      | .pipeline input output =>
        if direction.isOutput then walk direction output else walk direction input
      | .reference _ target => Walk.view target direction
      | .void => Walk.unsupported node direction
      | .function .. => Walk.unsupported node direction
      | .custom _ => Walk.unsupported node direction
    layer >>= annotate node direction
termination_by structural node => node

def walkItems (direction : Direction) : List Node → Path (List SchemaObject)
  | [] => return []
  | node :: nodes => do
    let first ← walk direction node
    let more ← walkItems direction nodes
    return first :: more
termination_by structural nodes => nodes

/-- The walk over the shape of an object: its properties, and the names of those that are
required. -/
def walkShape (direction : Direction) :
    List (String × Node) → Path (List (String × SchemaObject) × List String)
  | [] => return ([], [])
  | (key, node) :: shape => do
    let s ← walk direction node
    let optional ← Walk.fieldOptional direction node
    let (properties, required) ← walkShape direction shape
    return ((key, s) :: properties, if optional then required else key :: required)
termination_by structural shape => shape

end

/-- The documented view: the schema object of a reference stands for the component of what it
refers to. -/
def depicter : Depicter SchemaObject where
  stem := "Schema"
  placeholder := {}
  refer name := .refer (SchemaObject.componentPath name)
  walk node direction := walk direction node

def depict (setting : Setting) (direction : Direction) (node : Node) : View SchemaObject :=
  depicter.depict setting node direction

def noComponents : AliasTable SchemaObject := depicter.noAliases

end Document

end EventContracts
