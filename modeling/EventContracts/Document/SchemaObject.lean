import EventContracts.Json.Merge
import EventContracts.Json.Written

/-!
# Schema objects

The schemas of an event document: JSON Schema objects whose fields may all be missing. They are
written field by field in one order, and read back field by field in any order.
-/

namespace EventContracts

/-- The value of the `type` field: one name or a list of names. -/
inductive TypeNames where
  | one (name : String)
  | many (names : List String)
deriving DecidableEq, Repr

namespace TypeNames

def names : TypeNames → List String
  | one name => [name]
  | many names => names

/-- The first name. -/
def first? (t : TypeNames) : Option String := t.names.head?

def withNull (t : TypeNames) : TypeNames :=
  if t.names.contains "null" then t else many (t.names ++ ["null"])

def toJson : TypeNames → Json
  | one name => .string name
  | many names => .strings names

end TypeNames

/-- What further parts of a value may be: anything, nothing, or what a schema says. -/
inductive Further (α : Type) where
  | allowed (yes : Bool)
  | schema (s : α)
deriving Repr

/-- The items of an array: one schema for each position, or one for all. -/
inductive Items (α : Type) where
  | positional (schemas : List α)
  | each (s : α)
deriving Repr

structure SchemaObject where
  reference : Option String := none
  typeNames : Option TypeNames := none
  format : Option String := none
  description : Option String := none
  properties : Option (List (String × SchemaObject)) := none
  required : Option (List String) := none
  additionalProperties : Option (Further SchemaObject) := none
  items : Option (Items SchemaObject) := none
  additionalItems : Option (Further SchemaObject) := none
  choices : Option (List Json) := none
  oneOf : Option (List SchemaObject) := none
  allOf : Option (List SchemaObject) := none
  discriminator : Option String := none
  default : Option Json := none
  examples : Option (List Json) := none
  minimum : Option Json := none
  maximum : Option Json := none
  exclusiveMinimum : Option Json := none
  exclusiveMaximum : Option Json := none
  minLength : Option Nat := none
  maxLength : Option Nat := none
  minItems : Option Nat := none
  maxItems : Option Nat := none
  pattern : Option String := none
deriving Repr, Inhabited

namespace SchemaObject

def ofType (name : String) : SchemaObject := { typeNames := some (.one name) }

def refer (target : String) : SchemaObject := { reference := some target }

def any : SchemaObject := { format := some "any" }

def isReference (s : SchemaObject) : Bool := s.reference.isSome

/-- The first schema with every field that the second one has taken from there. -/
def overlay (s patch : SchemaObject) : SchemaObject where
  reference := patch.reference <|> s.reference
  typeNames := patch.typeNames <|> s.typeNames
  format := patch.format <|> s.format
  description := patch.description <|> s.description
  properties := patch.properties <|> s.properties
  required := patch.required <|> s.required
  additionalProperties := patch.additionalProperties <|> s.additionalProperties
  items := patch.items <|> s.items
  additionalItems := patch.additionalItems <|> s.additionalItems
  choices := patch.choices <|> s.choices
  oneOf := patch.oneOf <|> s.oneOf
  allOf := patch.allOf <|> s.allOf
  discriminator := patch.discriminator <|> s.discriminator
  default := patch.default <|> s.default
  examples := patch.examples <|> s.examples
  minimum := patch.minimum <|> s.minimum
  maximum := patch.maximum <|> s.maximum
  exclusiveMinimum := patch.exclusiveMinimum <|> s.exclusiveMinimum
  exclusiveMaximum := patch.exclusiveMaximum <|> s.exclusiveMaximum
  minLength := patch.minLength <|> s.minLength
  maxLength := patch.maxLength <|> s.maxLength
  minItems := patch.minItems <|> s.minItems
  maxItems := patch.maxItems <|> s.maxItems
  pattern := patch.pattern <|> s.pattern

/-- A field that is there only when it has a value. -/
def field? (name : String) (value : Option Json) : Fields Json :=
  match value with
  | some v => [(name, v)]
  | none => []

def present (fields : List (String × Option Json)) : Fields Json :=
  fields.flatMap fun field => field? field.1 field.2

mutual

def toFields : SchemaObject → Fields Json
  | { reference, typeNames, format, description, properties, required, additionalProperties, items,
      additionalItems, choices, oneOf, allOf, discriminator, default, examples, minimum, maximum,
      exclusiveMinimum, exclusiveMaximum, minLength, maxLength, minItems, maxItems, pattern } =>
    present [
      ("$ref", reference.map .string),
      ("type", typeNames.map TypeNames.toJson),
      ("format", format.map .string),
      ("description", description.map .string),
      ("properties", ofProperties? properties),
      ("required", required.map Json.strings),
      ("additionalProperties", ofFurther? additionalProperties),
      ("items", ofItems? items),
      ("additionalItems", ofFurther? additionalItems),
      ("enum", choices.map .array),
      ("oneOf", ofSchemas? oneOf),
      ("allOf", ofSchemas? allOf),
      ("discriminator", discriminator.map .string),
      ("default", default),
      ("examples", examples.map .array),
      ("minimum", minimum),
      ("maximum", maximum),
      ("exclusiveMinimum", exclusiveMinimum),
      ("exclusiveMaximum", exclusiveMaximum),
      ("minLength", minLength.map fun n => .whole n),
      ("maxLength", maxLength.map fun n => .whole n),
      ("minItems", minItems.map fun n => .whole n),
      ("maxItems", maxItems.map fun n => .whole n),
      ("pattern", pattern.map .string)]
termination_by structural s => s

def ofProperties? : Option (List (String × SchemaObject)) → Option Json
  | some properties => some (.object (fieldsOfProperties properties))
  | none => none
termination_by structural properties => properties

/-- The value of what further parts may be, if something is said of them. -/
def ofFurther? : Option (Further SchemaObject) → Option Json
  | some (.allowed yes) => some (.bool yes)
  | some (.schema s) => some (.object (toFields s))
  | none => none
termination_by structural further => further

def ofItems? : Option (Items SchemaObject) → Option Json
  | some (.positional schemas) => some (.array (objectsOf schemas))
  | some (.each s) => some (.object (toFields s))
  | none => none
termination_by structural items => items

def ofSchemas? : Option (List SchemaObject) → Option Json
  | some schemas => some (.array (objectsOf schemas))
  | none => none
termination_by structural schemas => schemas

def objectsOf : List SchemaObject → List Json
  | [] => []
  | s :: rest => .object (toFields s) :: objectsOf rest
termination_by structural schemas => schemas

def fieldsOfProperties : List (String × SchemaObject) → List (String × Json)
  | [] => []
  | (name, s) :: rest => (name, .object (toFields s)) :: fieldsOfProperties rest
termination_by structural properties => properties

end

def toJson (s : SchemaObject) : Json := .object s.toFields

/-- The names of the fields, in the order in which they are written. -/
def fieldNames : List String :=
  ["$ref", "type", "format", "description", "properties", "required", "additionalProperties",
    "items", "additionalItems", "enum", "oneOf", "allOf", "discriminator", "default", "examples",
    "minimum", "maximum", "exclusiveMinimum", "exclusiveMaximum", "minLength", "maxLength",
    "minItems", "maxItems", "pattern"]

end SchemaObject

namespace Json.Written

def asText? : Written → Option String
  | text s => s
  | _ => none

/-- A count: a whole number that is not negative. -/
def asCount? : Written → Option Nat
  | number (some (.whole n)) => if n < 0 then none else some n.toNat
  | _ => none

def asTexts? : Written → Option (List String)
  | array items => items.mapM asText?
  | _ => none

def asValues? : Written → Option (List Json)
  | array items => values? items
  | _ => none

end Json.Written

namespace TypeNames

def ofWritten? : Json.Written → Option TypeNames
  | .text s => s.map one
  | v => v.asTexts?.map many

end TypeNames

namespace SchemaObject

/-- How a part of a schema object can be read, if it has to be. -/
structure Part where
  schema : Unit → Option SchemaObject
  schemas : Unit → Option (List SchemaObject)
  properties : Unit → Option (Fields SchemaObject)

/-- Read what further parts may be. A part that may be of two forms has to have a value. -/
def further? (v : Json.Written) (part : Part) : Option (Further SchemaObject) :=
  match v with
  | .bool yes => some (.allowed yes)
  | v => if v.value?.isSome then (part.schema ()).map .schema else none

/-- Read the items of an array. A list that is no list of schemas may still be one schema. -/
def items? (v : Json.Written) (part : Part) : Option (Items SchemaObject) :=
  if v.value?.isSome then
    match part.schemas () with
    | some schemas => some (.positional schemas)
    | none => (part.schema ()).map .each
  else none

/-- Give a field its value. Null leaves it out. -/
def assign (name : String) (v : Json.Written) (part : Part) (s : SchemaObject) :
    Option SchemaObject :=
  match v with
  | .null => some s
  | v =>
    match name with
    | "$ref" => v.asText?.map fun x => { s with reference := some x }
    | "type" => (TypeNames.ofWritten? v).map fun x => { s with typeNames := some x }
    | "format" => v.asText?.map fun x => { s with format := some x }
    | "description" => v.asText?.map fun x => { s with description := some x }
    | "properties" => (part.properties ()).map fun x => { s with properties := some x }
    | "required" => v.asTexts?.map fun x => { s with required := some x }
    | "additionalProperties" =>
      (further? v part).map fun x => { s with additionalProperties := some x }
    | "items" => (items? v part).map fun x => { s with items := some x }
    | "additionalItems" => (further? v part).map fun x => { s with additionalItems := some x }
    | "enum" => v.asValues?.map fun x => { s with choices := some x }
    | "oneOf" => (part.schemas ()).map fun x => { s with oneOf := some x }
    | "allOf" => (part.schemas ()).map fun x => { s with allOf := some x }
    | "discriminator" => v.asText?.map fun x => { s with discriminator := some x }
    | "default" => v.value?.map fun x => { s with default := some x }
    | "examples" => v.asValues?.map fun x => { s with examples := some x }
    | "minimum" => v.value?.map fun x => { s with minimum := some x }
    | "maximum" => v.value?.map fun x => { s with maximum := some x }
    | "exclusiveMinimum" => v.value?.map fun x => { s with exclusiveMinimum := some x }
    | "exclusiveMaximum" => v.value?.map fun x => { s with exclusiveMaximum := some x }
    | "minLength" => v.asCount?.map fun x => { s with minLength := some x }
    | "maxLength" => v.asCount?.map fun x => { s with maxLength := some x }
    | "minItems" => v.asCount?.map fun x => { s with minItems := some x }
    | "maxItems" => v.asCount?.map fun x => { s with maxItems := some x }
    | "pattern" => v.asText?.map fun x => { s with pattern := some x }
    | _ => some s

mutual

/-- Read a schema object: an object, or the list of all its fields. -/
def ofWritten? : Json.Written → Option SchemaObject
  | .object fields => ofFields? fields [] {}
  | .array items =>
    if items.length = fieldNames.length then ofElements? items fieldNames {} else none
  | _ => none
termination_by structural v => v

def schemasOf? : Json.Written → Option (List SchemaObject)
  | .array items => listOf? items
  | _ => none
termination_by structural v => v

def propertiesOf? : Json.Written → Option (Fields SchemaObject)
  | .object fields => (pairsOf? fields).map Fields.ofPairs
  | _ => none
termination_by structural v => v

/-- Read fields one after the other. A field of a schema object may be given only once; other
fields are left out. -/
def ofFields? : List (Option String × Json.Written) → List String → SchemaObject →
    Option SchemaObject
  | [], _, s => some s
  | (none, _) :: _, _, _ => none
  | (some name, v) :: rest, seen, s =>
    if seen.contains name then none
    else if fieldNames.contains name then
      match assign name v
          ⟨fun _ => ofWritten? v, fun _ => schemasOf? v, fun _ => propertiesOf? v⟩ s with
      | some s => ofFields? rest (name :: seen) s
      | none => none
    else ofFields? rest seen s
termination_by structural fields => fields

/-- Read a list of values as the fields of the given names. -/
def ofElements? : List Json.Written → List String → SchemaObject → Option SchemaObject
  | v :: rest, name :: names, s =>
    match assign name v
        ⟨fun _ => ofWritten? v, fun _ => schemasOf? v, fun _ => propertiesOf? v⟩ s with
    | some s => ofElements? rest names s
    | none => none
  | _, _, s => some s
termination_by structural items => items

def listOf? : List Json.Written → Option (List SchemaObject)
  | [] => some []
  | v :: rest => do
    let s ← ofWritten? v
    let more ← listOf? rest
    return s :: more
termination_by structural items => items

def pairsOf? : List (Option String × Json.Written) → Option (List (String × SchemaObject))
  | [] => some []
  | (name, v) :: rest => do
    let name ← name
    let s ← ofWritten? v
    let more ← pairsOf? rest
    return (name, s) :: more
termination_by structural fields => fields

end

def ofJson? (v : Json) : Option SchemaObject := ofWritten? v.written

end SchemaObject

end EventContracts
