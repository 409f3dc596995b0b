import EventContracts.Config.Basic
import EventContracts.Depiction
import EventContracts.Schema.Probe
import EventContracts.TypeScript.Type

/-!
# Typed schemas

The view of a schema as a type. A schema that a reference stands for becomes a declared alias. What
is handed to a callback flows the other way, so a callback is depicted in the other direction.
-/

namespace EventContracts.TypeScript

abbrev View (α : Type) := Depicting TypeExpr α

abbrev Path (α : Type) := Walk TypeExpr α

namespace TypeExpr

/-- The sample that a transform of this type is tried on. -/
def sampleType? (t : TypeExpr) : Option SampleType :=
  match t.bare with
  | keyword .number => some .number
  | keyword .bigint => some .bigint
  | keyword .string => some .string
  | keyword .boolean => some .boolean
  | keyword .null => some .null
  | object _ => some .object
  | record .. => some .object
  | array _ => some .array
  | tuple .. => some .array
  | reference name => if name = "Date" then some .date else none
  | _ => none

/-- What is known about the result of a transform that was tried. -/
def ofProbe : Except ProbeError Primitive → TypeExpr
  | .ok .number => keyword .number
  | .ok .string => keyword .string
  | .ok .boolean => keyword .boolean
  | .error _ => keyword .any

end TypeExpr

/-- The type of a transformed value: what the transform gives when it is tried on a sample. -/
def transformed (node : Node) (input : TypeExpr) : Path TypeExpr :=
  match input.sampleType? with
  | none => return .keyword .any
  | some t => return .ofProbe (← Walk.probe node t.sample)

/-- The name of the parameter at a position: a callback at the end has a name of its own. -/
def paramName (position : Nat) (isLast : Bool) (node : Node) : String :=
  if node.isFunction && isLast then "cb" else "p" ++ toString position

def paramDirection (direction : Direction) (node : Node) : Direction :=
  if node.isFunction then direction.flip else direction

def annotate (notes : Notes) (t : TypeExpr) : TypeExpr :=
  match notes.description with
  | some description => t.withComment description
  | none => t

mutual

/-- The walk over a node. -/
def walk (style : OptionalStyle) : Node → Direction → Path TypeExpr
  | .mk kind notes, direction =>
    let node := Node.mk kind notes
    let layer : Path TypeExpr := match kind with
      | .string _ => pure (.keyword .string)
      | .number _ => pure (.keyword .number)
      | .bigint _ => pure (.keyword .bigint)
      | .boolean _ => pure (.keyword .boolean)
      | .date _ => pure (.reference "Date")
      | .null => pure (.keyword .null)
      | .any => pure (.keyword .any)
      | .unknown => pure (.keyword .unknown)
      | .void => pure (.keyword .void)
      | .literal value => pure (.literal value)
      | .choice values => pure (.unionOf (values.map fun value => .literal (.string value)))
      | .array item _ _ => do pure (.array (← walk style item direction))
      | .tuple items rest => do
        let items ← walkItems style items direction
        let rest ← match rest with
          | some rest => do pure (some (← walk style rest direction))
          | none => pure none
        pure (.tuple items rest)
      | .object shape => do pure (.object (← walkMembers style shape direction))
      | .record key value => do
        let key ← walk style key direction
        let value ← walk style value direction
        pure (.record key value)
      | .union options => do pure (.unionOf (← walkItems style options direction))
      | .taggedUnion _ options => do pure (.unionOf (← walkItems style options direction))
      | .intersection left right => do
        let left ← walk style left direction
        let right ← walk style right direction
        pure (.intersection [left, right])
      | .optional inner => do
        let inner ← walk style inner direction
        pure (if style.orUndefined then .unionOf [inner, .keyword .undefined] else inner)
      | .nullable inner => do pure (.unionOf [← walk style inner direction, .keyword .null])
      | .default inner _ => walk style inner direction
      | .fallback inner _ => walk style inner direction
      | .branded inner _ => walk style inner direction
      | .readonly inner => walk style inner direction
      | .preprocess inner _ => walk style inner direction
      | .effect inner effect => do
        let input ← walk style inner direction
        match effect, direction with
        | .transform _, .output => transformed node input
        | _, _ => pure input
      | .pipeline input output =>
        if direction.isOutput then walk style output direction else walk style input direction
      | .reference _ target => Walk.view target direction
      | .function args returns => do
        let params ← match args with
          | .mk (.tuple items rest) _ => do
            let params ← walkParams style items 0 direction
            let further ← match rest with
              | some rest => do pure [⟨"rest", ← walk style rest direction, true⟩]
              | none => pure []
            pure (params ++ further)
          | args => do
            let type ← walk style args (paramDirection direction args)
            pure [⟨paramName 0 true args, type, false⟩]
        let returns ← walk style returns direction
        pure (.function params returns)
      | .custom _ => Walk.unsupported node direction
    layer >>= fun t => return annotate notes t
termination_by structural node => node

def walkItems (style : OptionalStyle) : List Node → Direction → Path (List TypeExpr)
  | [], _ => return []
  | node :: nodes, direction => do
    let first ← walk style node direction
    let more ← walkItems style nodes direction
    return first :: more
termination_by structural nodes => nodes

/-- The walk over the shape of an object: the members of its type. -/
def walkMembers (style : OptionalStyle) :
    List (String × Node) → Direction → Path (List (Member TypeExpr))
  | [], _ => return []
  | (key, node) :: shape, direction => do
    let optional ← Walk.fieldOptional direction node
    let type ← walk style node direction
    let more ← walkMembers style shape direction
    return ⟨key, type, optional && style.questionMark⟩ :: more
termination_by structural shape => shape

/-- The walk over arguments: the parameters of a function type, from a position on. -/
def walkParams (style : OptionalStyle) :
    List Node → Nat → Direction → Path (List (Param TypeExpr))
  | [], _, _ => return []
  | node :: nodes, position, direction => do
    let type ← walk style node (paramDirection direction node)
    let more ← walkParams style nodes (position + 1) direction
    return ⟨paramName position nodes.isEmpty node, type, false⟩ :: more
termination_by structural nodes => nodes

end

/-- The typed view: the type of a reference is the alias of what it refers to. -/
def depicter (style : OptionalStyle) : Depicter TypeExpr where
  stem := "Type"
  placeholder := .keyword .any
  refer name := .reference name
  walk := walk style

def depict (setting : Setting) (style : OptionalStyle) (direction : Direction) (node : Node) :
    View TypeExpr :=
  (depicter style).depict setting node direction

def noAliases : AliasTable TypeExpr := { stem := "Type" }

def aliasDeclarations (table : AliasTable TypeExpr) : List Declaration :=
  table.definitions.map fun (name, type) => .typeAlias name type

end EventContracts.TypeScript
