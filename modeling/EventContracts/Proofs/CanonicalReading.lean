import EventContracts.Proofs.SpecConversion
import EventContracts.Schema.Canonical

/-! A canonical form can be read back. The reader below looks at the fields of a description and at
nothing else, so it does not need the definitions: what stands for the target of a reference is
skipped, and the key tells which one it is. Whatever is written for targets, a schema that comes
from conversion is what the reader makes of its description; two schemas with one description are
one schema. -/

namespace EventContracts

namespace Json

/-- The text of a value that is one. -/
def text? : Json → Option String
  | string s => some s
  | _ => none

/-- The natural number of a value that is one. -/
def count? : Json → Option Nat
  | number (.whole n) => some n.toNat
  | _ => none

/-- The double of a value that is one. -/
def double? : Json → Option Double
  | number (.double d) => some d
  | _ => none

/-- Whether a value is true. -/
def isTrue : Json → Bool
  | bool b => b
  | _ => false

/-- The items of a list. -/
def items : Json → List Json
  | array items => items
  | _ => []

@[simp] lemma text?_ofText? (text : Option String) : (ofText? text).text? = text := by
  cases text <;> rfl

@[simp] lemma count?_ofNat? (n : Option Nat) : (ofNat? n).count? = n := by
  cases n <;> rfl

@[simp] lemma double?_ofDouble? (d : Option Double) : (ofDouble? d).double? = d := by
  cases d <;> rfl

@[simp] lemma filterMap_text?_strings (texts : List String) :
    (strings texts).items.filterMap text? = texts := by
  simp only [strings, items, List.filterMap_map]
  exact List.filterMap_some

end Json

@[simp] lemma StringFormat.ofName?_name (format : StringFormat) :
    StringFormat.ofName? format.name = some format := by
  cases format <;> decide

/-- A field of a description, with the nodes that its value may describe: one, several, or named
ones. -/
structure FormPart where
  value : Json
  node? : Option Node
  nodes? : Option (List Node)
  shape? : Option (List (String × Node))

namespace FormPart

/-- The parts of a description. -/
abbrev Parts := Fields FormPart

variable (parts : Parts)

/-- The value of a field, null when it is missing. -/
def valueOf (key : String) : Json := ((Fields.get? key parts).map value).getD .null

/-- The node of a field. -/
def nodeOf (key : String) : Option Node := (Fields.get? key parts).bind node?

/-- The nodes of a field. -/
def nodesOf (key : String) : Option (List Node) := (Fields.get? key parts).bind nodes?

/-- The named nodes of a field. -/
def shapeOf (key : String) : Option (List (String × Node)) := (Fields.get? key parts).bind shape?

/-- The text of a field. -/
def textOf (key : String) : Option String := (valueOf parts key).text?

/-- The transform that a field names. -/
def transformOf (key : String) : Option Transform := (textOf parts key).bind Transform.builtin?

/-- The name in the key of a reference. -/
def targetOf (key : String) : String := String.ofList (key.toList.drop "definitions.".length)

/-- The kind that a word and the fields beside it describe. The words of references and effects can
be those of kinds that nothing is known about; the fields tell. -/
def kindOf (word : String) : Option (Kind Node) :=
  match word with
  | "string" => some (.string {
      minLength := (valueOf parts "minLength").count?
      maxLength := (valueOf parts "maxLength").count?
      format := (textOf parts "format").bind StringFormat.ofName?
      pattern := textOf parts "pattern"
      coerce := (valueOf parts "coerce").isTrue })
  | "number" => some (.number {
      whole := (valueOf parts "int").isTrue
      minimum := (valueOf parts "minimum").double?
      maximum := (valueOf parts "maximum").double?
      exclusiveMinimum := (valueOf parts "exclusiveMinimum").double?
      exclusiveMaximum := (valueOf parts "exclusiveMaximum").double?
      coerce := (valueOf parts "coerce").isTrue })
  | "bigint" => some (.bigint (valueOf parts "coerce").isTrue)
  | "boolean" => some (.boolean (valueOf parts "coerce").isTrue)
  | "date" => some (.date (valueOf parts "coerce").isTrue)
  | "null" => some .null
  | "any" => some .any
  | "unknown" => some .unknown
  | "void" => some .void
  | "literal" => some (.literal (valueOf parts "value"))
  | "enum" => some (.choice ((valueOf parts "values").items.filterMap Json.text?))
  | "array" => do
    some (.array (← nodeOf parts "item") (valueOf parts "minItems").count?
      (valueOf parts "maxItems").count?)
  | "tuple" => do some (.tuple (← nodesOf parts "items") (nodeOf parts "rest"))
  | "object" => do some (.object (← shapeOf parts "shape"))
  | "record" => do some (.record (← nodeOf parts "key") (← nodeOf parts "value"))
  | "union" => do some (.union (← nodesOf parts "options"))
  | "discriminatedUnion" => do
    some (.taggedUnion (← textOf parts "discriminator") (← nodesOf parts "options"))
  | "intersection" => do some (.intersection (← nodeOf parts "left") (← nodeOf parts "right"))
  | "optional" => do some (.optional (← nodeOf parts "inner"))
  | "nullable" => do some (.nullable (← nodeOf parts "inner"))
  | "readonly" => do some (.readonly (← nodeOf parts "inner"))
  | "default" => do some (.default (← nodeOf parts "inner") (valueOf parts "value"))
  | "catch" => do some (.fallback (← nodeOf parts "inner") (valueOf parts "value"))
  | "branded" => do some (.branded (← nodeOf parts "inner") (← textOf parts "brand"))
  | "effect" => match (valueOf parts "effect").field? "transform" with
    | some name => do
      some (.effect (← nodeOf parts "inner") (.transform (← name.text?.bind Transform.builtin?)))
    | none => some (.custom "effect")
  | "preprocess" => do
    some (.preprocess (← nodeOf parts "inner") (← transformOf parts "transform"))
  | "pipeline" => do some (.pipeline (← nodeOf parts "input") (← nodeOf parts "output"))
  | "lazy" => match textOf parts "ref" with
    | some key => some (.reference key (targetOf key))
    | none => some (.custom "lazy")
  | "function" => do some (.function (← nodeOf parts "args") (← nodeOf parts "returns"))
  | word => some (.custom word)

/-- The node that the parts of a description describe. -/
def read : Option Node := do
  let kind ← kindOf parts (← textOf parts "kind")
  some (.mk kind ⟨textOf parts "description", (valueOf parts "examples").items⟩)

end FormPart

mutual

/-- The node that a value describes. -/
def Json.form? : Json → Option Node
  | .object fields => FormPart.read (formParts fields)
  | _ => none
termination_by structural v => v

/-- The nodes that the items of a list describe. -/
def Json.forms? : Json → Option (List Node)
  | .array items => formsOfItems items
  | _ => none
termination_by structural v => v

/-- The named nodes that the fields of an object describe. -/
def Json.shapeForm? : Json → Option (List (String × Node))
  | .object fields => formsOfFields fields
  | _ => none
termination_by structural v => v

/-- The nodes that values describe. -/
def formsOfItems : List Json → Option (List Node)
  | [] => some []
  | v :: rest => do
    let node ← v.form?
    let nodes ← formsOfItems rest
    some (node :: nodes)
termination_by structural items => items

/-- The named nodes that named values describe. -/
def formsOfFields : List (String × Json) → Option (List (String × Node))
  | [] => some []
  | (key, v) :: rest => do
    let node ← v.form?
    let shape ← formsOfFields rest
    some ((key, node) :: shape)
termination_by structural fields => fields

/-- The parts of a description. -/
def formParts : List (String × Json) → FormPart.Parts
  | [] => []
  | (key, v) :: rest => (key, ⟨v, v.form?, v.forms?, v.shapeForm?⟩) :: formParts rest
termination_by structural fields => fields

end

lemma Fields.get?_append {α : Type} (key : String) (fields more : Fields α) :
    get? key (fields ++ more) = (get? key fields).or (get? key more) := by
  induction fields with
  | nil => simp [get?]
  | cons field fields ih =>
    obtain ⟨name, value⟩ := field
    simp only [List.cons_append, get?]
    split
    · rfl
    · exact ih

namespace FormPart

variable {fields : List (String × Json)} {key : String}

lemma get?_formParts :
    Fields.get? key (formParts fields) =
      (Fields.get? key fields).map fun v => ⟨v, v.form?, v.forms?, v.shapeForm?⟩ := by
  induction fields with
  | nil => rfl
  | cons field fields ih =>
    obtain ⟨name, v⟩ := field
    simp only [formParts, Fields.get?]
    split
    · rfl
    · exact ih

@[simp] lemma valueOf_formParts :
    valueOf (formParts fields) key = (Fields.get? key fields).getD .null := by
  rw [valueOf, get?_formParts]
  cases Fields.get? key fields <;> rfl

@[simp] lemma nodeOf_formParts :
    nodeOf (formParts fields) key = (Fields.get? key fields).bind Json.form? := by
  rw [nodeOf, get?_formParts]
  cases Fields.get? key fields <;> rfl

@[simp] lemma nodesOf_formParts :
    nodesOf (formParts fields) key = (Fields.get? key fields).bind Json.forms? := by
  rw [nodesOf, get?_formParts]
  cases Fields.get? key fields <;> rfl

@[simp] lemma shapeOf_formParts :
    shapeOf (formParts fields) key = (Fields.get? key fields).bind Json.shapeForm? := by
  rw [shapeOf, get?_formParts]
  cases Fields.get? key fields <;> rfl

@[simp] lemma targetOf_referenceKey (name : String) :
    targetOf (Spec.Parts.referenceKey name) = name := by
  have length : "definitions.".length = 12 := by decide
  simp [targetOf, Spec.Parts.referenceKey, length]

lemma get?_noteFields (notes : Notes) (other : key ≠ "description") (unlike : key ≠ "examples") :
    Fields.get? key (Node.noteFields notes) = none := by
  simp only [Node.noteFields]
  split <;> simp [Fields.get?, other.symm, unlike.symm]

lemma get?_description (notes : Notes) :
    Fields.get? "description" (Node.noteFields notes) = some (Json.ofText? notes.description) := by
  simp [Node.noteFields, Fields.get?]

lemma items_examples (notes : Notes) :
    ((Fields.get? "examples" (Node.noteFields notes)).getD .null).items = notes.examples := by
  simp only [Node.noteFields]
  split
  · rename_i empty
    simp [Fields.get?, Json.items, List.isEmpty_iff.mp empty]
  · simp [Fields.get?, Json.items]

/-- A description is read, if its kind is: the notes are at its end, and the fields of the kind do
not get into their way. -/
lemma read_form {kind : Kind Node} (notes : Notes)
    (description : Fields.get? "description" fields = none)
    (examples : Fields.get? "examples" fields = none)
    (layer : kindOf (formParts (("kind", .string kind.name) :: (fields ++ Node.noteFields notes)))
      kind.name = some kind) :
    ((Node.mk kind notes).form fields).form? = some (.mk kind notes) := by
  change (Json.object (("kind", .string kind.name) :: (fields ++ Node.noteFields notes))).form? = _
  rw [Json.form?, read]
  have named : textOf (formParts (("kind", .string kind.name) ::
      (fields ++ Node.noteFields notes))) "kind" = some kind.name := by
    simp [textOf, Fields.get?, Json.text?]
  have described : textOf (formParts (("kind", .string kind.name) ::
      (fields ++ Node.noteFields notes))) "description" = notes.description := by
    simp [textOf, Fields.get?, Fields.get?_append, description, get?_description]
  have shown : (valueOf (formParts (("kind", .string kind.name) ::
      (fields ++ Node.noteFields notes))) "examples").items = notes.examples := by
    simp [Fields.get?, Fields.get?_append, examples, items_examples]
  simp only [named, Option.bind_eq_bind, Option.bind_some, layer, described, shown]

end FormPart

namespace Node

/-- Whether a node is what is read from its description. -/
def ReadsBack (target? : String → String → Option (Option Json)) (node : Node) : Prop :=
  ∀ form, describeWith target? node = some form → form.form? = some node

variable {target? : String → String → Option (Option Json)}

lemma forms?_describeItems {nodes : List Node} {forms : List Json}
    (each : ∀ node ∈ nodes, node.ReadsBack target?)
    (h : describeItems target? nodes = some forms) : formsOfItems forms = some nodes := by
  induction nodes generalizing forms with
  | nil =>
    obtain rfl := Option.some.inj h
    rfl
  | cons node nodes ih =>
    obtain ⟨first, made, h⟩ := Option.bind_eq_some_iff.mp h
    obtain ⟨more, rest, h⟩ := Option.bind_eq_some_iff.mp h
    obtain rfl := Option.some.inj h
    have read := each node List.mem_cons_self first made
    simp [formsOfItems, read, ih (fun n mem => each n (List.mem_cons_of_mem _ mem)) rest]

lemma shapeForm?_describeShape {shape : List (String × Node)} {forms : List (String × Json)}
    (each : ∀ node ∈ shape.map Prod.snd, node.ReadsBack target?)
    (h : describeShape target? shape = some forms) : formsOfFields forms = some shape := by
  induction shape generalizing forms with
  | nil =>
    obtain rfl := Option.some.inj h
    rfl
  | cons field shape ih =>
    obtain ⟨key, node⟩ := field
    obtain ⟨first, made, h⟩ := Option.bind_eq_some_iff.mp h
    obtain ⟨more, rest, h⟩ := Option.bind_eq_some_iff.mp h
    obtain rfl := Option.some.inj h
    have read := each node List.mem_cons_self first made
    simp [formsOfFields, read, ih (fun n mem => each n (List.mem_cons_of_mem _ mem)) rest]

lemma builtin?_name {t : Transform} (mem : t ∈ Transform.builtins) :
    Transform.builtin? t.name = some t := by
  simp only [Transform.builtins, List.mem_cons, List.not_mem_nil, or_false] at mem
  rcases mem with rfl | rfl | rfl | rfl | rfl <;> rfl

open FormPart

variable {notes : Notes} {inner : Node}

lemma readsBack_string (checks : StringChecks) :
    (Node.mk (.string checks) notes).ReadsBack target? := by
  rintro _ ⟨⟩
  refine read_form notes rfl rfl ?_
  have format : (checks.format.map StringFormat.name).bind StringFormat.ofName? =
      checks.format := by
    cases checks.format <;> simp
  change some _ = _
  simp [textOf, Fields.get?, Json.isTrue, format]

lemma readsBack_tuple {items : List Node} {rest : Option Node}
    (each : ∀ node ∈ items ++ rest.toList, node.ReadsBack target?) :
    (Node.mk (.tuple items rest) notes).ReadsBack target? := by
  intro form h
  unfold describeWith at h
  obtain ⟨forms, made, h⟩ := Option.bind_eq_some_iff.mp h
  have read := forms?_describeItems (fun n mem => each n (List.mem_append_left _ mem)) made
  cases rest with
  | none =>
    obtain rfl := Option.some.inj h
    refine read_form notes rfl rfl ?_
    change (_ >>= _) = _
    simp [Fields.get?, Json.forms?, Json.form?, read]
  | some rest =>
    obtain ⟨last, further, h⟩ := Option.bind_eq_some_iff.mp h
    obtain rfl := Option.some.inj h
    have final := each rest (by simp) last further
    refine read_form notes rfl rfl ?_
    change (_ >>= _) = _
    simp [Fields.get?, Json.forms?, read, final]

/-- Transforms are read by their names, so they have to be those that have one. -/
lemma readsBack_transformed {t : Transform} (known : t ∈ Transform.builtins)
    (reads : inner.ReadsBack target?) :
    (Node.mk (.effect inner (.transform t)) notes).ReadsBack target? := by
  intro form h
  obtain ⟨first, made, h⟩ := Option.bind_eq_some_iff.mp h
  obtain rfl := Option.some.inj h
  refine read_form notes rfl rfl ?_
  change (_ >>= _) = _
  simp [Fields.get?, Json.text?, reads first made, builtin?_name known]

lemma readsBack_preprocess {t : Transform} (known : t ∈ Transform.builtins)
    (reads : inner.ReadsBack target?) :
    (Node.mk (.preprocess inner t) notes).ReadsBack target? := by
  intro form h
  obtain ⟨first, made, h⟩ := Option.bind_eq_some_iff.mp h
  obtain rfl := Option.some.inj h
  refine read_form notes rfl rfl ?_
  change (_ >>= _) = _
  simp [transformOf, textOf, Fields.get?, Json.text?, reads first made, builtin?_name known]

lemma readsBack_reference (target : String) :
    (Node.mk (.reference (Spec.Parts.referenceKey target) target) notes).ReadsBack target? := by
  intro form h
  obtain ⟨written, -, h⟩ := Option.bind_eq_some_iff.mp h
  obtain rfl := Option.some.inj h
  refine read_form notes ?_ ?_ ?_
  · cases written <;> rfl
  · cases written <;> rfl
  · change some _ = _
    simp

/-- The words of effects and of references are no known types, but the fields of these are missing
where nothing is known of a kind. -/
lemma readsBack_custom {name : String} (unknown : name ∉ Spec.knownTypes) :
    (Node.mk (.custom name) notes).ReadsBack target? := by
  rintro _ ⟨⟩
  refine read_form notes rfl rfl ?_
  by_cases effect : name = "effect"
  · obtain rfl := effect
    rw [Kind.name, kindOf.eq_def]
    simp [Fields.get?, get?_noteFields, Json.field?]
  by_cases lazy : name = "lazy"
  · obtain rfl := lazy
    rw [Kind.name, kindOf.eq_def]
    simp [textOf, Fields.get?, get?_noteFields, Json.text?]
  change kindOf _ name = _
  unfold kindOf
  split
  all_goals first
    | rfl
    | exact absurd rfl effect
    | exact absurd rfl lazy
    | exact absurd (show _ ∈ Spec.knownTypes by decide) unknown

/-- The description of a layer is read back, when those of its children are. -/
lemma readsBack_layer {defined : List String} {good : Json → Prop} {kind : Kind Node}
    (layer : kind.Converted defined good) (child : ∀ node ∈ kind.children, node.ReadsBack target?) :
    (Node.mk kind notes).ReadsBack target? := by
  intro form h
  cases kind with
  | string checks => exact readsBack_string checks form h
  | number _ | bigint _ | boolean _ | date _ | literal _ | choice _ =>
    obtain rfl := Option.some.inj h
    refine read_form notes rfl rfl ?_
    change some _ = _
    simp [Fields.get?, Json.isTrue]
  | null | any | unknown | void =>
    obtain rfl := Option.some.inj h
    exact read_form notes rfl rfl rfl
  | array item _ _ =>
    obtain ⟨first, made, h⟩ := Option.bind_eq_some_iff.mp h
    obtain rfl := Option.some.inj h
    have read := child item List.mem_cons_self first made
    refine read_form notes rfl rfl ?_
    change (_ >>= _) = _
    simp [Fields.get?, read]
  | tuple items rest => exact readsBack_tuple child form h
  | object shape =>
    obtain ⟨forms, made, h⟩ := Option.bind_eq_some_iff.mp h
    obtain rfl := Option.some.inj h
    have read : formsOfFields forms = some shape := shapeForm?_describeShape child made
    refine read_form notes rfl rfl ?_
    change (_ >>= _) = _
    simp [Fields.get?, Json.shapeForm?, read]
  | record left right | intersection left right | pipeline left right | function left right =>
    obtain ⟨first, made, h⟩ := Option.bind_eq_some_iff.mp h
    obtain ⟨second, further, h⟩ := Option.bind_eq_some_iff.mp h
    obtain rfl := Option.some.inj h
    have read := child left (by simp [Kind.children]) first made
    have last := child right (by simp [Kind.children]) second further
    refine read_form notes rfl rfl ?_
    change (_ >>= _) = _
    simp [Fields.get?, read, last]
  | union options | taggedUnion discriminator options =>
    obtain ⟨forms, made, h⟩ := Option.bind_eq_some_iff.mp h
    obtain rfl := Option.some.inj h
    have read : formsOfItems forms = some options := forms?_describeItems child made
    refine read_form notes rfl rfl ?_
    change (_ >>= _) = _
    simp [textOf, Fields.get?, Json.forms?, Json.text?, read]
  | optional inner | nullable inner | readonly inner | default inner _ | fallback inner _
  | branded inner _ =>
    obtain ⟨first, made, h⟩ := Option.bind_eq_some_iff.mp h
    obtain rfl := Option.some.inj h
    have read := child inner List.mem_cons_self first made
    refine read_form notes rfl rfl ?_
    change (_ >>= _) = _
    simp [textOf, Fields.get?, Json.text?, read]
  | effect inner effect =>
    cases effect with
    | refine _ => exact layer.elim
    | transform t => exact readsBack_transformed layer (child inner List.mem_cons_self) form h
  | preprocess inner t => exact readsBack_preprocess layer (child inner List.mem_cons_self) form h
  | reference key target =>
    obtain ⟨rfl, -⟩ := layer
    exact readsBack_reference target form h
  | custom name => exact readsBack_custom layer form h

/-- The description of a schema that comes from conversion is read back, whatever is written for
the targets of references. -/
theorem form?_describe {defined : List String} {good : Json → Prop} {node : Node} {form : Json}
    (converted : node.Converted defined good) (h : describeWith target? node = some form) :
    form.form? = some node := by
  suffices reads : node.ReadsBack target? from reads form h
  clear h
  induction node using Node.induct with
  | step kind notes ih =>
    obtain ⟨layer, -, children⟩ := converted
    exact readsBack_layer layer fun child mem => ih child mem (children child mem)

end Node

end EventContracts
