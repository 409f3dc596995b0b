import EventContracts.Schema.Transform
import EventContracts.Instant
import EventContracts.Pattern.Reader

/-!
# Schema trees

A schema describes data: what is accepted, and what is made of it. A node has a kind and notes; the
kind holds the children. References name schemas that are kept elsewhere, so a tree is finite even
when a schema mentions itself.
-/

namespace EventContracts

inductive StringFormat where
  | email
  | url
  | uuid
  | dateTime
deriving DecidableEq, Repr

namespace StringFormat

def name : StringFormat → String
  | email => "email"
  | url => "url"
  | uuid => "uuid"
  | dateTime => "date-time"

/-- The format of a name; one format has two names. -/
def ofName? (name : String) : Option StringFormat :=
  if name = "email" then some email
  else if name = "url" then some url
  else if name = "uuid" then some uuid
  else if name = "date-time" ∨ name = "datetime" then some dateTime
  else none

def pattern? : StringFormat → Option String
  | email => some "^[^\\s@]+@[^\\s@]+\\.[^\\s@]+$"
  | url => some "^[a-zA-Z][a-zA-Z0-9+.-]*://\\S+$"
  | uuid => some ("^[0-9a-fA-F]\x7b8\x7d-[0-9a-fA-F]\x7b4\x7d-[0-9a-fA-F]\x7b4\x7d-" ++
      "[0-9a-fA-F]\x7b4\x7d-[0-9a-fA-F]\x7b12\x7d$")
  | dateTime => none

def matchesText (format : StringFormat) (text : String) : Bool :=
  match format.pattern? with
  | some pattern => ((Regex.ofPattern? pattern).map (·.matchesIn text)).getD false
  | none => (Instant.read text).isSome

end StringFormat

/-- What is asked of a text. A coercing text accepts every value and takes its JSON text. -/
structure StringChecks where
  minLength : Option Nat := none
  maxLength : Option Nat := none
  format : Option StringFormat := none
  pattern : Option String := none
  coerce : Bool := false
deriving DecidableEq, Repr

structure NumberChecks where
  whole : Bool := false
  minimum : Option Double := none
  maximum : Option Double := none
  exclusiveMinimum : Option Double := none
  exclusiveMaximum : Option Double := none
  coerce : Bool := false
deriving DecidableEq, Repr

/-- What is done with a value that has passed a schema. -/
inductive Effect where
  | transform (t : Transform)
  | refine (r : Refinement)
deriving Repr

/-- One layer of a schema tree with children of type `α`. A reference has a key, which tells
references apart, and the name of the schema that it stands for. -/
inductive Kind (α : Type) where
  | string (checks : StringChecks)
  | number (checks : NumberChecks)
  | bigint (coerce : Bool)
  | boolean (coerce : Bool)
  | date (coerce : Bool)
  | null
  | any
  | unknown
  | void
  | literal (value : Json)
  | choice (values : List String)
  | array (item : α) (minItems maxItems : Option Nat)
  | tuple (items : List α) (rest : Option α)
  | object (shape : List (String × α))
  | record (key value : α)
  | union (options : List α)
  | taggedUnion (discriminator : String) (options : List α)
  | intersection (left right : α)
  | optional (inner : α)
  | nullable (inner : α)
  | default (inner : α) (value : Json)
  | fallback (inner : α) (value : Json)
  | branded (inner : α) (brand : String)
  | readonly (inner : α)
  | effect (inner : α) (effect : Effect)
  | preprocess (inner : α) (transform : Transform)
  | pipeline (input output : α)
  | reference (key target : String)
  | function (args returns : α)
  | custom (name : String)
deriving Repr

structure Notes where
  description : Option String := none
  examples : List Json := []
deriving Repr

/-- A schema tree. -/
inductive Node where
  | mk (kind : Kind Node) (notes : Notes)

namespace Kind

variable {α : Type}

def name : Kind α → String
  | string _ => "string"
  | number _ => "number"
  | bigint _ => "bigint"
  | boolean _ => "boolean"
  | date _ => "date"
  | null => "null"
  | any => "any"
  | unknown => "unknown"
  | void => "void"
  | literal _ => "literal"
  | choice _ => "enum"
  | array .. => "array"
  | tuple .. => "tuple"
  | object _ => "object"
  | record .. => "record"
  | union _ => "union"
  | taggedUnion .. => "discriminatedUnion"
  | intersection .. => "intersection"
  | optional _ => "optional"
  | nullable _ => "nullable"
  | default .. => "default"
  | fallback .. => "catch"
  | branded .. => "branded"
  | readonly _ => "readonly"
  | effect .. => "effect"
  | preprocess .. => "preprocess"
  | pipeline .. => "pipeline"
  | reference .. => "lazy"
  | function .. => "function"
  | custom name => name

/-- The children of a layer, from left to right. -/
def children : Kind α → List α
  | array item _ _ => [item]
  | tuple items rest => items ++ rest.toList
  | object shape => shape.map Prod.snd
  | record key value => [key, value]
  | union options => options
  | taggedUnion _ options => options
  | intersection left right => [left, right]
  | optional inner => [inner]
  | nullable inner => [inner]
  | default inner _ => [inner]
  | fallback inner _ => [inner]
  | branded inner _ => [inner]
  | readonly inner => [inner]
  | effect inner _ => [inner]
  | preprocess inner _ => [inner]
  | pipeline input output => [input, output]
  | function args returns => [args, returns]
  | _ => []

/-- Whether the kind itself coerces its input; wrappers are not looked through. -/
def coerces : Kind α → Bool
  | string checks => checks.coerce
  | number checks => checks.coerce
  | bigint coerce => coerce
  | boolean coerce => coerce
  | date coerce => coerce
  | _ => false

/-- The kind with coercion switched on, where there is any. -/
def coercing : Kind α → Kind α
  | string checks => string { checks with coerce := true }
  | number checks => number { checks with coerce := true }
  | bigint _ => bigint true
  | boolean _ => boolean true
  | date _ => date true
  | kind => kind

/-- The kind with a schema for further elements, where there can be any. -/
def withRest (rest : α) : Kind α → Kind α
  | tuple items _ => tuple items (some rest)
  | kind => kind

/-- A child is smaller than the layer that holds it. -/
theorem sizeOf_lt_of_mem [SizeOf α] {kind : Kind α} {child : α} (h : child ∈ kind.children) :
    sizeOf child < sizeOf kind := by
  cases kind with
  | tuple items rest =>
    rcases List.mem_append.mp h with h | h
    · have := List.sizeOf_lt_of_mem h
      simp only [tuple.sizeOf_spec]
      omega
    · cases rest with
      | none => simp at h
      | some rest =>
        have : child = rest := by simpa using h
        simp only [tuple.sizeOf_spec, Option.some.sizeOf_spec, this]
        omega
  | object shape =>
    obtain ⟨field, hf, rfl⟩ := List.mem_map.mp h
    have := List.sizeOf_lt_of_mem hf
    obtain ⟨key, child⟩ := field
    simp only [object.sizeOf_spec, Prod.mk.sizeOf_spec] at this ⊢
    omega
  | union options =>
    have : sizeOf child < sizeOf options := List.sizeOf_lt_of_mem h
    simp only [union.sizeOf_spec]
    omega
  | taggedUnion discriminator options =>
    have : sizeOf child < sizeOf options := List.sizeOf_lt_of_mem h
    simp only [taggedUnion.sizeOf_spec]
    omega
  | _ =>
    simp only [children, List.mem_cons, List.not_mem_nil, or_false] at h
    all_goals
      rcases h with rfl | rfl
      all_goals simp
      all_goals omega

end Kind

namespace Node

def of (kind : Kind Node) : Node := mk kind {}

instance : Inhabited Node := ⟨of .any⟩

def kind : Node → Kind Node
  | mk kind _ => kind

def notes : Node → Notes
  | mk _ notes => notes

def kindName (node : Node) : String := node.kind.name

def coerces (node : Node) : Bool := node.kind.coerces

def isOptionalKind (node : Node) : Bool :=
  match node.kind with
  | .optional _ => true
  | _ => false

def isFunction (node : Node) : Bool :=
  match node.kind with
  | .function .. => true
  | _ => false

def described (node : Node) (description : String) : Node :=
  mk node.kind { node.notes with description := some description }

/-- Induction over schema trees: what holds of a node when it holds of its children holds of every
node. -/
theorem induct {P : Node → Prop}
    (step : ∀ kind notes, (∀ child ∈ kind.children, P child) → P (mk kind notes)) (node : Node) :
    P node :=
  match node with
  | mk kind notes => step kind notes fun child _ => induct step child
termination_by sizeOf node
decreasing_by
  have := Kind.sizeOf_lt_of_mem ‹child ∈ kind.children›
  simp
  omega

end Node

abbrev Definitions := Fields Node

/-- The schema that a reference stands for. A name without schema stands for a kind that nothing
is known about. -/
def Definitions.resolve (definitions : Definitions) (name : String) : Node :=
  (Fields.get? name definitions).getD (.of (.custom s!"invalid reference {name}"))

end EventContracts
