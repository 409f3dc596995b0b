import EventContracts.Schema.Validation
import EventContracts.Digest

/-!
# Canonical form

A description of a schema as a JSON value, from which its fingerprint is taken. Transforms and
refinements contribute their names only. A reference is written with the schema that it stands for,
unless its key is already open on the way from the root: then the key alone stands for it. No key
is opened twice on one way, so the number of keys bounds how deep references are nested.
-/

namespace EventContracts

namespace Json

/-- A double as it is, or null when there is none. -/
def ofDouble? : Option Double → Json
  | some d => number (.double d)
  | none => null

end Json

namespace Node

def noteFields (notes : Notes) : Fields Json :=
  [("description", Json.ofText? notes.description)] ++
    if notes.examples.isEmpty then [] else [("examples", .array notes.examples)]

/-- A description: the word for the kind, what the kind holds, and the notes. -/
def form (node : Node) (fields : Fields Json) : Json :=
  .object ([("kind", .string node.kindName)] ++ fields ++ noteFields node.notes)

mutual

/-- Describe a node, given what is written for the schema that a reference stands for. -/
def describeWith (target? : String → String → Option (Option Json)) : Node → Option Json
  | mk kind notes => do
    let fields : Fields Json ← match kind with
      | .string checks => some [("minLength", .ofNat? checks.minLength),
          ("maxLength", .ofNat? checks.maxLength),
          ("format", .ofText? (checks.format.map StringFormat.name)),
          ("pattern", .ofText? checks.pattern), ("coerce", .bool checks.coerce)]
      | .number checks => some [("int", .bool checks.whole), ("minimum", .ofDouble? checks.minimum),
          ("maximum", .ofDouble? checks.maximum),
          ("exclusiveMinimum", .ofDouble? checks.exclusiveMinimum),
          ("exclusiveMaximum", .ofDouble? checks.exclusiveMaximum), ("coerce", .bool checks.coerce)]
      | .bigint coerce => some [("coerce", .bool coerce)]
      | .boolean coerce => some [("coerce", .bool coerce)]
      | .date coerce => some [("coerce", .bool coerce)]
      | .null => some []
      | .any => some []
      | .unknown => some []
      | .void => some []
      | .literal value => some [("value", value)]
      | .choice values => some [("values", .strings values)]
      | .array item minItems maxItems => do
        let item ← describeWith target? item
        some [("item", item), ("minItems", .ofNat? minItems), ("maxItems", .ofNat? maxItems)]
      | .tuple items rest => do
        let items ← describeItems target? items
        let rest ← match rest with
          | some rest => describeWith target? rest
          | none => some .null
        some [("items", .array items), ("rest", rest)]
      | .object shape => do
        let shape ← describeShape target? shape
        some [("shape", .object shape)]
      | .record key value => do
        let key ← describeWith target? key
        let value ← describeWith target? value
        some [("key", key), ("value", value)]
      | .union options => do
        let options ← describeItems target? options
        some [("options", .array options)]
      | .taggedUnion discriminator options => do
        let options ← describeItems target? options
        some [("discriminator", .string discriminator), ("options", .array options)]
      | .intersection left right => do
        let left ← describeWith target? left
        let right ← describeWith target? right
        some [("left", left), ("right", right)]
      | .optional inner => do
        let inner ← describeWith target? inner
        some [("inner", inner)]
      | .nullable inner => do
        let inner ← describeWith target? inner
        some [("inner", inner)]
      | .readonly inner => do
        let inner ← describeWith target? inner
        some [("inner", inner)]
      | .default inner value => do
        let inner ← describeWith target? inner
        some [("inner", inner), ("value", value)]
      | .fallback inner value => do
        let inner ← describeWith target? inner
        some [("inner", inner), ("value", value)]
      | .branded inner brand => do
        let inner ← describeWith target? inner
        some [("inner", inner), ("brand", .string brand)]
      | .effect inner effect => do
        let inner ← describeWith target? inner
        let effect := match effect with
          | .transform t => ("transform", Json.string t.name)
          | .refine r => ("refine", Json.string r.name)
        some [("inner", inner), ("effect", .object [effect])]
      | .preprocess inner transform => do
        let inner ← describeWith target? inner
        some [("inner", inner), ("transform", .string transform.name)]
      | .pipeline input output => do
        let input ← describeWith target? input
        let output ← describeWith target? output
        some [("input", input), ("output", output)]
      | .reference key target => do
        let target ← target? key target
        some (("ref", .string key) :: target.toList.map (("target", ·)))
      | .function args returns => do
        let args ← describeWith target? args
        let returns ← describeWith target? returns
        some [("args", args), ("returns", returns)]
      | .custom _ => some []
    return form (mk kind notes) fields
termination_by structural node => node

def describeItems (target? : String → String → Option (Option Json)) :
    List Node → Option (List Json)
  | [] => some []
  | node :: nodes => do
    let first ← describeWith target? node
    let more ← describeItems target? nodes
    return first :: more
termination_by structural nodes => nodes

def describeShape (target? : String → String → Option (Option Json)) :
    List (String × Node) → Option (List (String × Json))
  | [] => some []
  | (key, node) :: shape => do
    let first ← describeWith target? node
    let more ← describeShape target? shape
    return (key, first) :: more
termination_by structural shape => shape

end

/-- Describe a node on whose way some keys are open. None when references are nested deeper than
allowed. -/
def describe (definitions : Definitions) : Nat → List String → Node → Option Json
  | 0, opened, node =>
    describeWith (fun key _ => if key ∈ opened then some none else none) node
  | depth + 1, opened, node =>
    describeWith (fun key target =>
      if key ∈ opened then some none
      else (describe definitions depth (key :: opened) (definitions.resolve target)).map some) node

mutual

def referenceKeys : Node → List String
  | mk kind _ => match kind with
    | .array item _ _ => referenceKeys item
    | .tuple items rest => keysOfItems items ++ (match rest with
      | some rest => referenceKeys rest
      | none => [])
    | .object shape => keysOfShape shape
    | .record key value => referenceKeys key ++ referenceKeys value
    | .union options => keysOfItems options
    | .taggedUnion _ options => keysOfItems options
    | .intersection left right => referenceKeys left ++ referenceKeys right
    | .optional inner => referenceKeys inner
    | .nullable inner => referenceKeys inner
    | .readonly inner => referenceKeys inner
    | .default inner _ => referenceKeys inner
    | .fallback inner _ => referenceKeys inner
    | .branded inner _ => referenceKeys inner
    | .effect inner _ => referenceKeys inner
    | .preprocess inner _ => referenceKeys inner
    | .pipeline input output => referenceKeys input ++ referenceKeys output
    | .reference key _ => [key]
    | .function args returns => referenceKeys args ++ referenceKeys returns
    | _ => []
termination_by structural node => node

def keysOfItems : List Node → List String
  | [] => []
  | node :: nodes => referenceKeys node ++ keysOfItems nodes
termination_by structural nodes => nodes

def keysOfShape : List (String × Node) → List String
  | [] => []
  | (_, node) :: shape => referenceKeys node ++ keysOfShape shape
termination_by structural shape => shape

end

end Node

namespace Definitions

/-- The keys of the references in the definitions. -/
def referenceKeys (definitions : Definitions) : List String :=
  definitions.flatMap fun definition => definition.2.referenceKeys

/-- The canonical form of a node; the keys of all references bound the depth. -/
def canonical? (definitions : Definitions) (node : Node) : Option Json :=
  let keys := (node.referenceKeys ++ definitions.referenceKeys).eraseDups
  node.describe definitions keys.length []

def canonical (definitions : Definitions) (node : Node) : Json :=
  (canonical? definitions node).getD .null

end Definitions

/-- How the schemas that references stand for are told apart. -/
inductive Fingerprinter where
  | digest
  | kind
  | description
deriving DecidableEq, Repr

namespace Fingerprinter

def fingerprint (strategy : Fingerprinter) (definitions : Definitions) (node : Node) : String :=
  match strategy with
  | digest => Digest.ofText (definitions.canonical node).compact
  | kind => node.kindName
  | description => node.notes.description.getD "none"

end Fingerprinter

end EventContracts
