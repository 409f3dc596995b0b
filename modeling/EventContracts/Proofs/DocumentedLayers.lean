import EventContracts.Proofs.SchemaRenaming
import EventContracts.Proofs.ViewedParts
import Mathlib.Data.List.Forall2

/-! What the documented view of a node can be, said once. A walk that succeeds has made the view of
its outermost layer from the views of the parts of this layer, and has laid the notes of the node
over it. What is known of all documented views is proved by cases on layers, not on walks. -/

namespace EventContracts

namespace Kind

/-- Whether the view of a layer holds the views of its parts as they are. The view of any other
layer is that of a part, changed or not, or is made of two. -/
def gathers {α : Type} : Kind α → Bool
  | intersection .. => false
  | optional _ => false
  | nullable _ => false
  | default .. => false
  | fallback .. => false
  | branded .. => false
  | readonly _ => false
  | effect .. => false
  | preprocess .. => false
  | pipeline .. => false
  | function .. => false
  | _ => true

lemma mem_children_of_gathers {direction : Direction} {kind : Kind Node} (gathers : kind.gathers)
    {part : Node × Direction} (mem : part ∈ kind.documentedParts direction) :
    part.1 ∈ kind.children := by
  cases kind with
  | function _ _ | pipeline _ _ => cases gathers
  | record key value =>
    rw [documentedParts] at mem
    split at mem
    · cases mem
    · obtain rfl := List.mem_singleton.mp mem
      exact List.mem_cons_of_mem _ List.mem_cons_self
  | _ =>
    obtain ⟨child, inside, rfl⟩ := List.mem_map.mp mem
    exact inside

end Kind

namespace Document

open SchemaObject Depicter

variable {setting : Setting} {table : AliasTable SchemaObject} {direction : Direction}

/-- What is laid over the view of a layer: nothing, when the view stands for another one. -/
lemma replay_annotate {node : Node} {s s' : SchemaObject}
    (h : depicter.replay setting table (annotate node direction s) = .ok s') :
    s' = s ∨ ∃ (nullable : Bool) (description : Option String) (examples : Option (List Json)),
      s' = s.overlay {
        description := description
        typeNames := if nullable then s.typeNames.map TypeNames.withNull else none
        examples := examples } := by
  rw [annotate] at h
  split at h
  · exact .inl (Except.ok.inj h).symm
  · obtain ⟨nullable, -, h⟩ := replay_bind_ok h
    obtain ⟨examples, -, h⟩ := replay_bind_ok h
    exact .inr ⟨nullable, _, _, (Except.ok.inj h).symm⟩

/-- What is laid over the view of a layer that stands for no other one, when its node does not
coerce or the view is one of input: null is allowed when the node accepts it. -/
lemma replay_annotate_accepts {node : Node} {s s' : SchemaObject}
    (itself : s.isReference = false) (visible : (direction.isOutput && node.coerces) = false)
    (h : depicter.replay setting table (annotate node direction s) = .ok s') :
    ∃ null examples, setting.library.acceptsNull node = .ok null ∧
      depicter.replay setting table (validExamples node direction node.notes.examples) =
        .ok examples ∧
      s' = s.overlay {
        description := node.notes.description
        typeNames := if null then s.typeNames.map TypeNames.withNull else none
        examples := if examples.isEmpty then none else some examples } := by
  rw [annotate, if_neg (by rw [itself]; exact Bool.false_ne_true)] at h
  obtain ⟨null, asked, h⟩ := replay_bind_ok h
  obtain ⟨examples, shown, h⟩ := replay_bind_ok h
  refine ⟨null, examples, ?_, shown, (Except.ok.inj h).symm⟩
  rw [nullable, visible] at asked
  change depicter.replay setting table
    (Walk.check (setting.library.validate node (some .null)).accepted) = .ok null at asked
  rw [Library.acceptsNull]
  cases accepted : (setting.library.validate node (some .null)).accepted with
  | ok found =>
    rw [accepted] at asked
    rw [Except.ok.inj asked]
  | error cause =>
    rw [accepted] at asked
    cases asked

/-- Nothing is laid over a reference. -/
lemma replay_annotate_reference {node : Node} {s s' : SchemaObject} (single : s.isReference)
    (h : depicter.replay setting table (annotate node direction s) = .ok s') : s' = s := by
  rw [annotate, if_pos single] at h
  exact (Except.ok.inj h).symm

lemma replay_walkItems {nodes : List Node} {schemas : List SchemaObject}
    (h : depicter.replay setting table (walkItems direction nodes) = .ok schemas) :
    List.Forall₂ (fun node s => depicter.replay setting table (walk direction node) = .ok s)
      nodes schemas := by
  induction nodes generalizing schemas with
  | nil =>
    obtain rfl := Except.ok.inj h
    exact .nil
  | cons node nodes ih =>
    obtain ⟨s, first, h⟩ := replay_bind_ok h
    obtain ⟨more, rest, h⟩ := replay_bind_ok h
    obtain rfl := Except.ok.inj h
    exact .cons first (ih rest)

/-- The properties of a shape, and which of them are required. -/
lemma replay_walkShape {shape : List (String × Node)} {properties : List (String × SchemaObject)}
    {required : List String}
    (h : depicter.replay setting table (walkShape direction shape) = .ok (properties, required)) :
    (∀ property ∈ properties, ∃ node, (property.1, node) ∈ shape ∧
      depicter.replay setting table (walk direction node) = .ok property.2) ∧
    ∀ key ∈ required, ∃ node, (key, node) ∈ shape ∧
      depicter.replay setting table (Walk.fieldOptional direction node) = .ok false := by
  induction shape generalizing properties required with
  | nil =>
    obtain ⟨rfl, rfl⟩ := Prod.mk.inj (Except.ok.inj h)
    exact ⟨nofun, nofun⟩
  | cons field shape ih =>
    obtain ⟨key, node⟩ := field
    obtain ⟨s, first, h⟩ := replay_bind_ok h
    obtain ⟨optional, asked, h⟩ := replay_bind_ok h
    obtain ⟨⟨more, names⟩, rest, h⟩ := replay_bind_ok h
    obtain ⟨rfl, rfl⟩ := Prod.mk.inj (Except.ok.inj h)
    obtain ⟨from_shape, needed⟩ := ih rest
    constructor
    · intro property mem
      rcases List.mem_cons.mp mem with rfl | mem
      · exact ⟨node, List.mem_cons_self, first⟩
      · obtain ⟨n, inside, eq⟩ := from_shape property mem
        exact ⟨n, List.mem_cons_of_mem _ inside, eq⟩
    · intro name mem
      have later (mem : name ∈ names) : ∃ n, (name, n) ∈ (key, node) :: shape ∧
          depicter.replay setting table (Walk.fieldOptional direction n) = .ok false := by
        obtain ⟨n, inside, eq⟩ := needed name mem
        exact ⟨n, List.mem_cons_of_mem _ inside, eq⟩
      cases optional with
      | true => exact later mem
      | false =>
        rcases List.mem_cons.mp mem with rfl | mem
        · exact ⟨node, List.mem_cons_self, asked⟩
        · exact later mem

lemma replay_walkShape_names {shape : List (String × Node)}
    {properties : List (String × SchemaObject)} {required : List String}
    (h : depicter.replay setting table (walkShape direction shape) = .ok (properties, required)) :
    Fields.names properties = Fields.names shape := by
  induction shape generalizing properties required with
  | nil =>
    obtain ⟨rfl, rfl⟩ := Prod.mk.inj (Except.ok.inj h)
    rfl
  | cons field shape ih =>
    obtain ⟨s, -, h⟩ := replay_bind_ok h
    obtain ⟨optional, -, h⟩ := replay_bind_ok h
    obtain ⟨⟨more, names⟩, rest, h⟩ := replay_bind_ok h
    obtain ⟨rfl, rfl⟩ := Prod.mk.inj (Except.ok.inj h)
    exact congrArg (field.1 :: ·) (ih rest)

variable (setting table direction) in
/-- Whether a schema is the view of a node, as a table replays it. -/
abbrev Viewed (node : Node) (s : SchemaObject) : Prop :=
  depicter.replay setting table (walk direction node) = .ok s

variable (setting table direction) in
/-- The view of a layer, made of the views of its parts. -/
inductive Layer (notes : Notes) : Kind Node → SchemaObject → Prop where
  | string {checks} : Layer notes (.string checks) checks.toSchema
  | number {checks} : Layer notes (.number checks) checks.toSchema
  | bigint {coerce} : Layer notes (.bigint coerce) { ofType "integer" with format := some "bigint" }
  | boolean {coerce} : Layer notes (.boolean coerce) (ofType "boolean")
  | date {coerce} : Layer notes (.date coerce) { ofType "string" with format := some "date-time" }
  | null : Layer notes .null (ofType "null")
  | any : Layer notes .any SchemaObject.any
  | unknown : Layer notes .unknown SchemaObject.any
  | literal {value : Json} :
      Layer notes (.literal value) { ofType value.schemaType with choices := some [value] }
  | choice {values : List String} :
      Layer notes (.choice values) { ofType "string" with choices := some (values.map .string) }
  | array {item least most view} (shown : Viewed setting table direction item view) :
      Layer notes (.array item least most) { ofType "array" with
        items := some (.each view), minItems := least, maxItems := most }
  | tuple {items views} (shown : List.Forall₂ (Viewed setting table direction) items views) :
      Layer notes (.tuple items none) { ofType "array" with
        items := some (.positional views), additionalItems := some (.allowed false) }
  | longTuple {items views rest view}
      (shown : List.Forall₂ (Viewed setting table direction) items views)
      (further : Viewed setting table direction rest view) :
      Layer notes (.tuple items (some rest)) { ofType "array" with
        items := some (.positional views), additionalItems := some (.schema view) }
  | object {shape : List (String × Node)} {properties : List (String × SchemaObject)}
      {required : List String}
      (shown : depicter.replay setting table (walkShape direction shape) =
        .ok (properties, required)) :
      Layer notes (.object shape) { ofType "object" with
        properties := some properties
        required := if required.isEmpty then none else some required }
  | record {key value view} (unlisted : key.listedKeys? = none)
      (shown : Viewed setting table direction value view) :
      Layer notes (.record key value)
        { ofType "object" with additionalProperties := some (.schema view) }
  | emptyRecord {key value} (listed : key.listedKeys? = some []) :
      Layer notes (.record key value) (ofType "object")
  | listedRecord {key value first keys view} (listed : key.listedKeys? = some (first :: keys))
      (shown : Viewed setting table direction value view) :
      Layer notes (.record key value) (.ofKeys (first :: keys) view)
  | union {options views} (shown : List.Forall₂ (Viewed setting table direction) options views) :
      Layer notes (.union options) { oneOf := some views }
  | taggedUnion {discriminator options views}
      (shown : List.Forall₂ (Viewed setting table direction) options views) :
      Layer notes (.taggedUnion discriminator options)
        { oneOf := some views, discriminator := some discriminator }
  | intersection {left right l r} (fromLeft : Viewed setting table direction left l)
      (fromRight : Viewed setting table direction right r) :
      Layer notes (.intersection left right) (l.intersect r)
  | optional {inner view} (shown : Viewed setting table direction inner view) :
      Layer notes (.optional inner) view
  | readonly {inner view} (shown : Viewed setting table direction inner view) :
      Layer notes (.readonly inner) view
  | branded {inner brand view} (shown : Viewed setting table direction inner view) :
      Layer notes (.branded inner brand) view
  | fallback {inner value view} (shown : Viewed setting table direction inner view) :
      Layer notes (.fallback inner value) view
  | nullable {inner view} (shown : Viewed setting table direction inner view) :
      Layer notes (.nullable inner) view.orNull
  | default {inner value view} (shown : Viewed setting table direction inner view) :
      Layer notes (.default inner value) { view with default := some value }
  | refine {inner test view} (shown : Viewed setting table direction inner view) :
      Layer notes (.effect inner (.refine test)) view
  | untried {inner transform view} (shown : Viewed setting table direction inner view)
      (why : direction = .input ∨ view.isReference) :
      Layer notes (.effect inner (.transform transform)) view
  | tried {inner transform input view} (out : direction = .output)
      (shown : Viewed setting table direction inner input) (itself : input.isReference = false)
      (seen : depicter.replay setting table
        (transformed (.mk (.effect inner (.transform transform)) notes) input) = .ok view) :
      Layer notes (.effect inner (.transform transform)) view
  | preprocess {inner transform view} (shown : Viewed setting table direction inner view) :
      Layer notes (.preprocess inner transform)
        (if direction.isOutput then view else view.preprocessed)
  | pipeline {input output view}
      (shown : Viewed setting table direction (if direction.isOutput then output else input) view) :
      Layer notes (.pipeline input output) view
  | reference {key target name}
      (named : table.nameOf? (setting.aliasKey direction (setting.resolve target)) = some name) :
      Layer notes (.reference key target) (.refer (componentPath name))

variable {kind : Kind Node} {notes : Notes} {view s : SchemaObject}

/-- The view of a node is that of its layer, with the notes of the node laid over it. -/
lemma layer_of_replay (h : Viewed setting table direction (.mk kind notes) s) :
    ∃ view, Layer setting table direction notes kind view ∧
      depicter.replay setting table (annotate (.mk kind notes) direction view) = .ok s := by
  unfold Viewed walk at h
  obtain ⟨view, h, annotated⟩ := replay_bind_ok h
  refine ⟨view, ?_, annotated⟩
  cases kind with
  | void | function _ _ | custom _ => cases h
  | string _ => obtain rfl := Except.ok.inj h; exact .string
  | number _ => obtain rfl := Except.ok.inj h; exact .number
  | bigint _ => obtain rfl := Except.ok.inj h; exact .bigint
  | boolean _ => obtain rfl := Except.ok.inj h; exact .boolean
  | date _ => obtain rfl := Except.ok.inj h; exact .date
  | null => obtain rfl := Except.ok.inj h; exact .null
  | any => obtain rfl := Except.ok.inj h; exact .any
  | unknown => obtain rfl := Except.ok.inj h; exact .unknown
  | literal _ => obtain rfl := Except.ok.inj h; exact .literal
  | choice _ => obtain rfl := Except.ok.inj h; exact .choice
  | array item _ _ =>
    obtain ⟨item, shown, h⟩ := replay_bind_ok h
    obtain rfl := Except.ok.inj h
    exact .array shown
  | tuple items rest =>
    obtain ⟨views, shown, h⟩ := replay_bind_ok h
    cases rest with
    | none =>
      obtain rfl := Except.ok.inj h
      exact .tuple (replay_walkItems shown)
    | some rest =>
      obtain ⟨further, last, h⟩ := replay_bind_ok h
      obtain rfl := Except.ok.inj h
      exact .longTuple (replay_walkItems shown) last
  | object shape =>
    obtain ⟨⟨properties, required⟩, shown, h⟩ := replay_bind_ok h
    obtain rfl := Except.ok.inj h
    exact .object shown
  | record key value =>
    dsimp only at h
    cases listed : key.listedKeys? with
    | none =>
      rw [listed] at h
      obtain ⟨view, shown, h⟩ := replay_bind_ok h
      obtain rfl := Except.ok.inj h
      exact .record listed shown
    | some keys =>
      rw [listed] at h
      cases keys with
      | nil => obtain rfl := Except.ok.inj h; exact .emptyRecord listed
      | cons first keys =>
        obtain ⟨view, shown, h⟩ := replay_bind_ok h
        obtain rfl := Except.ok.inj h
        exact .listedRecord listed shown
  | union options =>
    obtain ⟨views, shown, h⟩ := replay_bind_ok h
    obtain rfl := Except.ok.inj h
    exact .union (replay_walkItems shown)
  | taggedUnion _ options =>
    obtain ⟨views, shown, h⟩ := replay_bind_ok h
    obtain rfl := Except.ok.inj h
    exact .taggedUnion (replay_walkItems shown)
  | intersection left right =>
    obtain ⟨l, fromLeft, h⟩ := replay_bind_ok h
    obtain ⟨r, fromRight, h⟩ := replay_bind_ok h
    obtain rfl := Except.ok.inj h
    exact .intersection fromLeft fromRight
  | optional inner => exact .optional h
  | readonly inner => exact .readonly h
  | branded inner _ => exact .branded h
  | fallback inner _ => exact .fallback h
  | nullable inner =>
    obtain ⟨view, shown, h⟩ := replay_bind_ok h
    obtain rfl := Except.ok.inj h
    exact .nullable shown
  | default inner value =>
    obtain ⟨view, shown, h⟩ := replay_bind_ok h
    obtain rfl := Except.ok.inj h
    exact .default shown
  | effect inner effect =>
    obtain ⟨input, shown, h⟩ := replay_bind_ok h
    cases effect with
    | refine _ => obtain rfl := Except.ok.inj h; exact .refine shown
    | transform _ =>
      cases direction with
      | input => obtain rfl := Except.ok.inj h; exact .untried shown (.inl rfl)
      | output =>
        dsimp only at h
        split at h
        · rename_i stands
          obtain rfl := Except.ok.inj h
          exact .untried shown (.inr stands)
        · rename_i itself
          exact .tried rfl shown (Bool.eq_false_iff.mpr itself) h
  | preprocess inner _ =>
    obtain ⟨view, shown, h⟩ := replay_bind_ok h
    obtain rfl := Except.ok.inj h
    exact .preprocess shown
  | pipeline input output =>
    refine .pipeline ?_
    dsimp only at h
    split at h
    · rwa [if_pos ‹_›]
    · rwa [if_neg ‹_›]
  | reference key target =>
    obtain ⟨name, named, h⟩ := replay_refer_ok h
    obtain rfl := Except.ok.inj h
    exact .reference named

/-- The view of an object has the properties of its shape. -/
lemma object_of_replay {shape : List (String × Node)}
    (h : Viewed setting table direction (.mk (.object shape) notes) s) :
    ∃ properties required,
      depicter.replay setting table (walkShape direction shape) = .ok (properties, required) ∧
      s.properties = some properties ∧
      s.required = if required.isEmpty then none else some required := by
  obtain ⟨view, layer, annotated⟩ := layer_of_replay h
  cases layer with
  | object shown =>
    rcases replay_annotate annotated with rfl | ⟨nullable, description, examples, rfl⟩
    · exact ⟨_, _, shown, rfl, rfl⟩
    · exact ⟨_, _, shown, rfl, rfl⟩

/-- What the view of a layer holds, if it holds views as they are: those of documented parts. -/
lemma Layer.parts_viewed (layer : Layer setting table direction notes kind view)
    (gathers : kind.gathers) {part : SchemaObject} (mem : part ∈ view.parts) :
    ∃ node, (node, direction) ∈ kind.documentedParts direction ∧
      Viewed setting table direction node part := by
  have among {nodes : List Node} {views : List SchemaObject}
      (shown : List.Forall₂ (Viewed setting table direction) nodes views) (mem : part ∈ views)
      (listed : ∀ node ∈ nodes, (node, direction) ∈ kind.documentedParts direction) :
      ∃ node, (node, direction) ∈ kind.documentedParts direction ∧
        Viewed setting table direction node part := by
    obtain ⟨node, inside, shown⟩ := exists_of_forall₂ shown.flip mem
    exact ⟨node, listed node inside, shown⟩
  cases layer with
  | string | number | bigint | boolean | date | null | any | unknown | literal | choice
  | emptyRecord _ | reference _ => cases mem
  | @array item _ _ view shown =>
    have only : part ∈ [view] := mem
    obtain rfl := List.mem_singleton.mp only
    exact ⟨item, by simp [Kind.documentedParts, Kind.parts, Kind.children], shown⟩
  | @tuple items views shown =>
    have inside : part ∈ views := by simpa [parts, ofType, Items.parts, Further.parts] using mem
    exact among shown inside (by simp [Kind.documentedParts, Kind.parts, Kind.children])
  | @longTuple items views rest view shown further =>
    have inside : part ∈ views ∨ part = view := by
      simpa [parts, ofType, Items.parts, Further.parts] using mem
    rcases inside with inside | rfl
    · refine among shown inside ?_
      simp +contextual [Kind.documentedParts, Kind.parts, Kind.children]
    · exact ⟨rest, by simp [Kind.documentedParts, Kind.parts, Kind.children], further⟩
  | object shown =>
    rw [mem_parts] at mem
    rcases mem with mem | mem | mem | mem | mem | mem
    · obtain ⟨property, inside, rfl⟩ := List.mem_map.mp mem
      obtain ⟨node, among, shown⟩ := (replay_walkShape shown).1 property inside
      exact ⟨node, List.mem_map_of_mem (List.mem_map_of_mem among), shown⟩
    all_goals cases mem
  | @record key value view unlisted shown =>
    have only : part ∈ [view] := mem
    obtain rfl := List.mem_singleton.mp only
    exact ⟨value, by simp [Kind.documentedParts, unlisted], shown⟩
  | @listedRecord key value first keys view listed shown =>
    rw [mem_parts] at mem
    rcases mem with mem | mem | mem | mem | mem | mem
    · obtain ⟨property, inside, rfl⟩ := List.mem_map.mp mem
      obtain ⟨key, -, rfl⟩ := List.mem_map.mp (Fields.mem_of_mem_ofPairs inside)
      exact ⟨value, by simp [Kind.documentedParts, listed], shown⟩
    all_goals cases mem
  | @union options views shown | @taggedUnion _ options views shown =>
    have inside : part ∈ views := by simpa [parts] using mem
    exact among shown inside fun node mem => List.mem_map_of_mem mem
  | intersection _ _ | optional _ | readonly _ | branded _ | fallback _ | nullable _ | default _
  | refine _ | untried _ _ | tried _ _ _ _ | preprocess _ | pipeline _ => cases gathers

end Document

end EventContracts
