import EventContracts.Error
import EventContracts.Schema.Node

/-!
# Schema specs

A spec is a value that describes a schema: the name of a type, or an object with the type and what
belongs to it. Its parts are specs again. The path of a spec, which errors tell, starts with the
path of the spec around it.

Specs are converted one layer at a time. The layers below are handed to a layer as its parts, each
with what it converts to; a part is converted only when its layer asks for it, so the first error in
the order of asking is the one that is told.
-/

namespace EventContracts.Spec

/-- A conversion, which fails with an error. -/
abbrev Converted := Except Error

/-- A part of a spec, with what it converts to at a path: as a spec, as a list of specs, and as
named specs. -/
structure Part where
  value : Json
  node : String → Converted Node
  nodes : String → Converted (List Node)
  shape : String → Converted (Fields Node)

/-- The parts of a spec, by their names. -/
abbrev Parts := Fields Part

variable {α : Type}

/-- The error of a spec that is not as it has to be. -/
def invalid (path message : String) : Converted α := .error (.invalidSchema path message)

namespace Parts

def required (parts : Parts) (key path : String) : Converted Part :=
  match Fields.get? key parts with
  | some part => .ok part
  | none => invalid path ("missing " ++ Text.ticked key)

def list (parts : Parts) (key path : String) : Converted (List Node) := do
  let part ← required parts key path
  match part.value with
  | .array _ => part.nodes s!"{path}.{key}"
  | _ => invalid path (Text.ticked key ++ " must be a list")

def inner (parts : Parts) (key path : String) : Converted Node := do
  (← required parts key path).node s!"{path}.{key}"

/-- A switch, which is off unless it is switched on. -/
def flag (parts : Parts) (key : String) : Bool :=
  match (Fields.get? key parts).map Part.value with
  | some (.bool b) => b
  | _ => false

def text? (parts : Parts) (key path : String) : Converted (Option String) :=
  match (Fields.get? key parts).map Part.value with
  | none => .ok none
  | some (.string text) => .ok (some text)
  | some _ => invalid path (Text.ticked key ++ " must be a string")

def text (parts : Parts) (key path missing : String) : Converted String := do
  match ← text? parts key path with
  | some text => return text
  | none => invalid path missing

def count? (parts : Parts) (key path : String) : Converted (Option Nat) :=
  let wrong := invalid path (Text.ticked key ++ " must be a non-negative integer")
  match (Fields.get? key parts).map Part.value with
  | none => .ok none
  | some (.number (.whole n)) => if n < 0 then wrong else .ok (some n.toNat)
  | some _ => wrong

def number? (parts : Parts) (key path : String) : Converted (Option Double) :=
  match (Fields.get? key parts).map Part.value with
  | none => .ok none
  | some (.number n) => .ok n.toDouble?
  | some _ => invalid path (Text.ticked key ++ " must be a number")

/-- Arguments: a list of specs is a tuple, and any other part is one spec. -/
def arguments (part : Part) (path : String) : Converted Node :=
  match part.value with
  | .array _ => do return .of (.tuple (← part.nodes path) none)
  | _ => part.node path

def stringChecks (parts : Parts) (path : String) : Converted StringChecks := do
  return {
    minLength := ← count? parts "minLength" path
    maxLength := ← count? parts "maxLength" path
    format := ← do
      match ← text? parts "format" path with
      | none => pure none
      | some name => match StringFormat.ofName? name with
        | some format => pure (some format)
        | none => invalid path ("unknown string format " ++ Text.ticked name)
    pattern := ← text? parts "pattern" path
    coerce := flag parts "coerce" }

def numberChecks (parts : Parts) (whole : Bool) (path : String) : Converted NumberChecks := do
  return {
    whole := whole
    minimum := ← number? parts "minimum" path
    maximum := ← number? parts "maximum" path
    exclusiveMinimum := ← number? parts "exclusiveMinimum" path
    exclusiveMaximum := ← number? parts "exclusiveMaximum" path
    coerce := flag parts "coerce" }

def choices (parts : Parts) (path : String) : Converted (List String) := do
  match (← required parts "values" path).value with
  | .array values => values.mapM fun
    | .string text => .ok text
    | _ => invalid path "enum values must be strings"
  | _ => invalid path (Text.ticked "values" ++ " must be a list")

def properties (parts : Parts) (path : String) : Converted (Fields Node) :=
  match Fields.get? "properties" parts with
  | none => .ok []
  | some part => match part.value with
    | .object _ => part.shape path
    | _ => invalid path (Text.ticked "properties" ++ " must be a map")

def transform (parts : Parts) (path : String) : Converted Transform := do
  let name ← text parts "transform" path ("missing " ++ Text.ticked "transform" ++ " name")
  match Transform.builtin? name with
  | some t => return t
  | none => .error (.unknownTransform name)

/-- The intersection of at least two members, from left to right. -/
def intersection (path : String) : List Node → Converted Node
  | first :: second :: rest =>
    .ok (rest.foldl (fun left right => .of (.intersection left right))
      (.of (.intersection first second)))
  | _ => invalid path "intersection needs at least two members"

def referenceKey (name : String) : String := "definitions." ++ name

def reference (parts : Parts) (defined : List String) (path : String) : Converted Node := do
  let name ← text parts "name" path ("missing reference " ++ Text.ticked "name")
  if defined.contains name then return .of (.reference (referenceKey name) name)
  else .error (.unknownReference name)

/-- The node of a type, given the parts of its spec. A type without a meaning of its own is one that
nothing is known about. -/
def ofType (parts : Parts) (defined : List String) (type path : String) : Converted Node := do
  let coerce := flag parts "coerce"
  match type with
  | "string" => return .of (.string (← stringChecks parts path))
  | "number" => return .of (.number (← numberChecks parts false path))
  | "integer" => return .of (.number (← numberChecks parts true path))
  | "bigint" => return .of (.bigint coerce)
  | "boolean" => return .of (.boolean coerce)
  | "date" => return .of (.date coerce)
  | "null" => return .of .null
  | "any" => return .of .any
  | "unknown" => return .of .unknown
  | "void" => return .of .void
  | "literal" => return .of (.literal (← required parts "value" path).value)
  | "enum" => return .of (.choice (← choices parts path))
  | "array" => do
    let item ← inner parts "items" path
    let minItems ← count? parts "minItems" path
    return .of (.array item minItems (← count? parts "maxItems" path))
  | "tuple" => do
    let items ← list parts "items" path
    let rest ← (Fields.get? "rest" parts).mapM fun part => part.node s!"{path}.rest"
    return .of (.tuple items rest)
  | "object" => return .of (.object (← properties parts path))
  | "record" => do
    let key ← match Fields.get? "key" parts with
      | some part => part.node s!"{path}.key"
      | none => pure (.of (.string {}))
    return .of (.record key (← inner parts "values" path))
  | "union" => return .of (.union (← list parts "options" path))
  | "discriminatedUnion" => do
    let discriminator ←
      text parts "discriminator" path ("missing " ++ Text.ticked "discriminator")
    return .of (.taggedUnion discriminator (← list parts "options" path))
  | "intersection" => do intersection path (← list parts "of" path)
  | "optional" => return .of (.optional (← inner parts "of" path))
  | "nullable" => return .of (.nullable (← inner parts "of" path))
  | "readonly" => return .of (.readonly (← inner parts "of" path))
  | "default" => do
    let node ← inner parts "of" path
    return .of (.default node (← required parts "value" path).value)
  | "catch" => do
    let node ← inner parts "of" path
    return .of (.fallback node (← required parts "value" path).value)
  | "branded" => do
    let brand ← text parts "brand" path ("missing " ++ Text.ticked "brand")
    return .of (.branded (← inner parts "of" path) brand)
  | "transform" => do
    let node ← inner parts "of" path
    return .of (.effect node (.transform (← transform parts path)))
  | "preprocess" => do
    let t ← transform parts path
    return .of (.preprocess (← inner parts "of" path) t)
  | "pipeline" => do
    let input ← inner parts "input" path
    return .of (.pipeline input (← inner parts "output" path))
  | "function" => do
    let args ← match Fields.get? "args" parts with
      | some part => arguments part s!"{path}.args"
      | none => pure (.of (.tuple [] none))
    let returns ← match Fields.get? "returns" parts with
      | some part => part.node s!"{path}.returns"
      | none => pure (.of .void)
    return .of (.function args returns)
  | "ref" => reference parts defined path
  | type => return .of (.custom type)

def noted (parts : Parts) (path : String) (node : Node) : Converted Node := do
  let node := match ← text? parts "description" path with
    | some description => node.described description
    | none => node
  match (Fields.get? "examples" parts).map Part.value with
  | none => return node
  | some (.array examples) =>
    return .mk node.kind { node.notes with examples := node.notes.examples ++ examples }
  | some _ => invalid path (Text.ticked "examples" ++ " must be a list")

/-- The wrappers that a spec of any type can ask for, from the inside out. -/
def wrapped (parts : Parts) (type path : String) (node : Node) : Converted Node := do
  let node := match Fields.get? "default" parts with
    | some part => if type = "default" then node else .of (.default node part.value)
    | none => node
  let node := if flag parts "nullable" then Node.of (.nullable node) else node
  let node := if flag parts "optional" then Node.of (.optional node) else node
  let node :=
    if type ≠ "readonly" ∧ flag parts "readonly" then Node.of (.readonly node) else node
  if type = "branded" then return node
  match ← text? parts "brand" path with
  | some brand => return .of (.branded node brand)
  | none => return node

/-- The node of a spec, given its parts. -/
def toNode (parts : Parts) (defined : List String) (path : String) : Converted Node := do
  match (Fields.get? "type" parts).map Part.value with
  | some (.string type) => do
    let node ← ofType parts defined type path
    noted parts path (← wrapped parts type path node)
  | _ => invalid path ("missing " ++ Text.ticked "type")

end Parts

/-- The part of a name alone: it is not a list and has no fields. -/
def Part.ofName (name : String) : Part where
  value := .string name
  node _ := .ok (.of (.custom name))
  nodes _ := .ok []
  shape _ := .ok []

mutual

/-- The node of a spec at a path, where references may go to the defined names. -/
def toNode (defined : List String) : Json → String → Converted Node
  | .string type, path => Parts.toNode [("type", Part.ofName type)] defined path
  | .object fields, path => Parts.toNode (partsOf defined fields) defined path
  | other, path => invalid path ("expected a schema spec, found " ++ other.compact)
termination_by structural spec => spec

/-- The nodes of the items of a list of specs at a path. Other values have none. -/
def toNodes (defined : List String) : Json → String → Converted (List Node)
  | .array items, path => nodesOf defined items 0 path
  | _, _ => .ok []
termination_by structural spec => spec

/-- The nodes of the fields of an object of specs at a path. Other values have none. -/
def toShape (defined : List String) : Json → String → Converted (Fields Node)
  | .object fields, path => shapeOf defined fields path
  | _, _ => .ok []
termination_by structural spec => spec

def nodesOf (defined : List String) : List Json → Nat → String → Converted (List Node)
  | [], _, _ => .ok []
  | spec :: rest, position, path => do
    let node ← toNode defined spec s!"{path}[{position}]"
    let nodes ← nodesOf defined rest (position + 1) path
    return node :: nodes
termination_by structural specs => specs

def shapeOf (defined : List String) : List (String × Json) → String → Converted (Fields Node)
  | [], _ => .ok []
  | (name, spec) :: rest, path => do
    let node ← toNode defined spec s!"{path}.{name}"
    let shape ← shapeOf defined rest path
    return (name, node) :: shape
termination_by structural specs => specs

def partsOf (defined : List String) : List (String × Json) → Parts
  | [] => []
  | (name, value) :: rest =>
    (name, ⟨value, toNode defined value, toNodes defined value, toShape defined value⟩) ::
      partsOf defined rest
termination_by structural fields => fields

end

def toArguments (defined : List String) (spec : Json) (path : String) : Converted Node :=
  Parts.arguments ⟨spec, toNode defined spec, toNodes defined spec, toShape defined spec⟩ path

end EventContracts.Spec
