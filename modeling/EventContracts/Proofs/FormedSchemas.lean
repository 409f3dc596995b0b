import EventContracts.Proofs.FormedReading
import EventContracts.Proofs.MetKinds
import EventContracts.Proofs.OutputSoundness

/-! Which schema objects of the documented view are well formed. Required names are properties
always. References stand alone and types are listed once as long as no default is given to what
stands for another schema, and no property is on both sides of an intersection: a default is laid
over a reference, and properties of both sides are merged as values. -/

namespace EventContracts

namespace Node

/-- Whether the documented view of a node stands for another schema. -/
def leads (direction : Direction) : Node → Bool
  | .mk kind _ => match kind with
    | .reference .. => true
    | .optional inner => leads direction inner
    | .nullable inner => leads direction inner
    | .default inner _ => leads direction inner
    | .fallback inner _ => leads direction inner
    | .branded inner _ => leads direction inner
    | .readonly inner => leads direction inner
    | .effect inner _ => leads direction inner
    | .preprocess inner _ => leads direction inner
    | .pipeline input output =>
      if direction.isOutput then leads direction output else leads direction input
    | _ => false
termination_by structural node => node

/-- The names that the properties of the documented view of a node can have. -/
def propertyNames (direction : Direction) : Node → List String
  | .mk kind _ => match kind with
    | .object shape => Fields.names shape
    | .record key _ => key.listedKeys?.getD []
    | .intersection left right => propertyNames direction left ++ propertyNames direction right
    | .optional inner => propertyNames direction inner
    | .nullable inner => propertyNames direction inner
    | .default inner _ => propertyNames direction inner
    | .fallback inner _ => propertyNames direction inner
    | .branded inner _ => propertyNames direction inner
    | .readonly inner => propertyNames direction inner
    | .effect inner _ => propertyNames direction inner
    | .preprocess inner _ => propertyNames direction inner
    | .pipeline input output =>
      if direction.isOutput then propertyNames direction output else propertyNames direction input
    | _ => []
termination_by structural node => node

end Node

/-- Whether a layer keeps schema objects well formed: it gives no default to a reference, it puts no
property of both sides together, and no field is declared twice. -/
def Kind.Careful (direction : Direction) : Kind Node → Prop
  | default inner _ => inner.leads direction = false
  | intersection left right =>
    (left.propertyNames direction).Disjoint (right.propertyNames direction)
  | object shape => (Fields.names shape).Nodup
  | _ => True

/-- Whether all documented layers of a node keep schema objects well formed. -/
inductive Node.Careful : Direction → Node → Prop where
  | mk {direction : Direction} {kind : Kind Node} {notes : Notes} (layer : kind.Careful direction)
      (parts : ∀ part ∈ kind.documentedParts direction, Careful part.2 part.1) :
      Careful direction (.mk kind notes)

lemma Node.careful_mk {direction : Direction} {kind : Kind Node} {notes : Notes} :
    (Node.mk kind notes).Careful direction ↔
      kind.Careful direction ∧
        ∀ part ∈ kind.documentedParts direction, part.1.Careful part.2 :=
  ⟨fun ⟨layer, parts⟩ => ⟨layer, parts⟩, fun ⟨layer, parts⟩ => ⟨layer, parts⟩⟩

namespace SchemaObject

variable {strict : Bool} {s s' : SchemaObject}

/-- The names of the properties of a schema object. -/
abbrev propertyNames (s : SchemaObject) : List String := Fields.names (s.properties.getD [])

/-- A schema object without reference and properties that lists its types once. -/
lemma Formed.plain (single : s.reference = none) (types : ∀ t, s.typeNames = some t → t.names.Nodup)
    (closed : s.properties = none) (free : s.required = none) : s.Formed strict where
  alone := fun _ target is => by rw [single] at is; cases is
  types := fun _ => types
  keys := fun _ => by rw [closed]; exact List.nodup_nil
  required := fun name mem => by rw [free] at mem; cases mem

/-- A schema object that says nothing about types. -/
lemma Formed.untyped (untyped : s.typeNames = none) (single : s.reference = none)
    (closed : s.properties = none) (free : s.required = none) : s.Formed strict := by
  refine .plain single ?_ closed free
  intro t is
  rw [untyped] at is
  cases is

/-- A schema object with one type. -/
lemma Formed.typed {name : String} (type : s.typeNames = some (.one name))
    (single : s.reference = none) (closed : s.properties = none) (free : s.required = none) :
    s.Formed strict := by
  refine .plain single ?_ closed free
  intro t is
  rw [type] at is
  obtain rfl := Option.some.inj is
  exact List.nodup_singleton name

lemma Formed.refer (target : String) : (SchemaObject.refer target).Formed strict where
  alone := fun _ _ is => by rw [Option.some.inj is]
  types := fun _ _ is => by cases is
  keys := fun _ => List.nodup_nil
  required := fun _ mem => by cases mem

lemma Throughout.leaf {P : SchemaObject → Prop} (here : P s) (single : s.parts = []) :
    s.Throughout P :=
  .mk here fun part mem => by rw [single] at mem; cases mem

lemma Throughout.ofType (name : String) : (SchemaObject.ofType name).Throughout (Formed strict) :=
  .leaf (.typed rfl rfl rfl rfl) rfl

/-- An object with properties, some of which are required. -/
lemma Throughout.ofObject {properties : Option (List (String × SchemaObject))}
    {required : Option (List String)} {examples : Option (List Json)}
    (each : ∀ t ∈ (properties.getD []).map Prod.snd, t.Throughout (Formed strict))
    (nodup : strict → (Fields.names (properties.getD [])).Nodup)
    (needed : ∀ name ∈ required.getD [], name ∈ Fields.names (properties.getD [])) :
    Throughout (Formed strict) { SchemaObject.ofType "object" with
      properties := properties, required := required, examples := examples } := by
  refine .mk ⟨?_, ?_, nodup, needed⟩ ?_
  · intro _ target is
    cases is
  · intro _ t is
    obtain rfl := Option.some.inj is
    exact List.nodup_singleton _
  · intro part mem
    rw [mem_parts] at mem
    rcases mem with mem | mem | mem | mem | mem | mem
    · exact each part mem
    all_goals cases mem

/-- A change of a schema object that keeps its parts, its properties and what is required. -/
lemma Throughout.change (formed : s.Throughout (Formed strict)) (parts : s'.parts = s.parts)
    (properties : s'.properties = s.properties) (required : s'.required = s.required)
    (single : strict → s'.reference = none)
    (types : strict → ∀ t, s'.typeNames = some t → t.names.Nodup) :
    s'.Throughout (Formed strict) := by
  refine .mk ⟨?_, types, ?_, ?_⟩ ?_
  · intro yes target is
    rw [single yes] at is
    cases is
  · rw [properties]
    exact formed.here.keys
  · rw [properties, required]
    exact formed.here.required
  · rw [parts]
    exact formed.parts

lemma names_withNull_nodup {t : TypeNames} (nodup : t.names.Nodup) : t.withNull.names.Nodup := by
  rw [TypeNames.withNull]
  split
  · exact nodup
  · rename_i fresh
    refine List.nodup_append.mpr ⟨nodup, List.nodup_singleton _, ?_⟩
    intro name mem last inside same
    obtain rfl := List.mem_singleton.mp inside
    rw [same] at mem
    exact fresh (List.contains_iff_mem.mpr mem)

lemma Throughout.orNull (formed : s.Throughout (Formed strict)) :
    s.orNull.Throughout (Formed strict) := by
  rw [SchemaObject.orNull]
  split
  · exact formed
  · rename_i single
    have single : s.reference = none := by simpa [isReference] using single
    split
    · rename_i t is
      refine formed.change rfl rfl rfl (fun _ => single) ?_
      intro yes t' is'
      obtain rfl := Option.some.inj is'
      exact names_withNull_nodup (formed.here.types yes t is)
    · refine .mk (.untyped rfl rfl rfl rfl) ?_
      intro part mem
      have listed : part ∈ [s, SchemaObject.ofType "null"] := mem
      rcases List.mem_cons.mp listed with rfl | mem
      · exact formed
      · obtain rfl := List.mem_singleton.mp mem
        exact .ofType _

lemma Throughout.preprocessed (formed : s.Throughout (Formed strict)) :
    s.preprocessed.Throughout (Formed strict) := by
  rw [SchemaObject.preprocessed]
  split
  · exact formed
  · rename_i single
    have single : s.reference = none := by simpa [isReference] using single
    exact formed.change rfl rfl rfl (fun _ => single) fun _ _ is => by cases is

/-- What is laid over a schema object by its notes. -/
lemma Throughout.noted (formed : s.Throughout (Formed strict)) (single : s.isReference = false)
    (nullable : Bool) (description : Option String) (examples : Option (List Json)) :
    (s.overlay {
      description := description
      typeNames := if nullable then s.typeNames.map TypeNames.withNull else none
      examples := examples }).Throughout (Formed strict) := by
  have single : s.reference = none := by simpa [isReference] using single
  refine formed.change rfl rfl rfl (fun _ => single) ?_
  intro yes t is
  have listed := formed.here.types yes
  cases nullable with
  | false => exact listed t is
  | true =>
    cases own : s.typeNames with
    | none =>
      simp only [overlay, own] at is
      cases is
    | some t' =>
      simp only [overlay, own] at is
      obtain rfl := Option.some.inj is
      exact names_withNull_nodup (listed t' own)

lemma mergeProperties?_formed {left right merged : List (String × SchemaObject)}
    (formed : ∀ s ∈ (left ++ right).map Prod.snd, s.Throughout (Formed strict))
    (apart : strict → (Fields.names (left ++ right)).Nodup)
    (h : mergeProperties? left right = some merged) :
    (∀ s ∈ merged.map Prod.snd, s.Throughout (Formed strict)) ∧ (Fields.names merged).Nodup ∧
      ∀ name, name ∈ Fields.names merged ↔
        name ∈ Fields.names left ∨ name ∈ Fields.names right := by
  obtain ⟨fields, made, h⟩ := Option.bind_eq_some_iff.mp h
  obtain ⟨pairs, read, same⟩ := Option.bind_eq_some_iff.mp h
  obtain rfl := Option.some.inj same
  have written {properties : List (String × SchemaObject)}
      (part : ∀ s ∈ properties.map Prod.snd, s.Throughout (Formed strict)) :
      ∀ field ∈ fieldsOfProperties properties, FormedAt strict .nested field.2 :=
    formedAt_fieldsOfProperties fun s mem => formedAt_toFields (part s mem)
  rw [List.map_append] at formed
  have fromLeft := written fun s mem => formed s (List.mem_append_left _ mem)
  have fromRight := written fun s mem => formed s (List.mem_append_right _ mem)
  have both : ∀ field ∈ fields, FormedAt strict .nested field.2 := by
    cases strict with
    | false => exact Json.mergeFields_formed _ (fun _ => .nested) fromRight fromLeft made
    | true =>
      have nodup : (Fields.names (fieldsOfProperties left ++ fieldsOfProperties right)).Nodup := by
        have apart := apart rfl
        rw [Fields.names, List.map_append] at apart ⊢
        change (Fields.names (fieldsOfProperties left) ++
          Fields.names (fieldsOfProperties right)).Nodup
        rwa [names_fieldsOfProperties, names_fieldsOfProperties]
      rw [Json.mergeFields_of_disjoint nodup] at made
      obtain rfl := Option.some.inj made
      intro field mem
      rcases List.mem_append.mp mem with mem | mem
      · exact fromLeft field mem
      · exact fromRight field mem
  refine ⟨?_, Fields.names_ofPairs_nodup pairs, ?_⟩
  · intro s mem
    obtain ⟨property, inside, rfl⟩ := List.mem_map.mp mem
    exact pairsOf?_formed fields both read property (Fields.mem_of_mem_ofPairs inside)
  · intro name
    rw [Fields.mem_names_ofPairs, names_of_pairsOf? read, Json.names_mergeFields made,
      names_fieldsOfProperties, names_fieldsOfProperties]

lemma mem_unionNames {left right : List String} {name : String}
    (mem : name ∈ unionNames left right) : name ∈ left ∨ name ∈ right := by
  induction right generalizing left with
  | nil => exact .inl mem
  | cons first rest ih =>
    rcases ih mem with mem | mem
    · dsimp only at mem
      split at mem
      · exact .inl mem
      · rcases List.mem_append.mp mem with mem | mem
        · exact .inl mem
        · exact .inr (List.mem_cons.mpr (.inl (List.mem_singleton.mp mem)))
    · exact .inr (List.mem_cons_of_mem _ mem)

/-- A schema of a plain object has this type only, and stands for itself. -/
lemma object_of_isMergeable (mergeable : s.isMergeable) :
    s.typeNames = some (.one "object") ∧ s.isReference = false := by
  rw [isMergeable, Bool.and_eq_true, beq_iff_eq, List.all_eq_true] at mergeable
  obtain ⟨object, fields⟩ := mergeable
  refine ⟨object, ?_⟩
  cases stands : s.reference with
  | none => rw [isReference, stands]; rfl
  | some target =>
    obtain ⟨reference⟩ := s
    obtain rfl := stands
    have written := fields ("$ref", .string target) (by simp [toFields, present, field?])
    have other : mergeableFields.contains "$ref" = false := by decide
    exact absurd (other.symm.trans written) Bool.false_ne_true

/-- What two schemas of plain objects are put together to. -/
lemma flatten?_eq {left right : SchemaObject} (h : flatten? left right = some s) :
    left.isMergeable ∧ right.isMergeable ∧ ∃ properties,
      (left.properties = none ∧ right.properties = none ∧ properties = none ∨
        ∃ merged, mergeProperties? (left.properties.getD []) (right.properties.getD []) =
          some merged ∧ properties = some merged) ∧
      s = { ofType "object" with
        properties := properties
        required :=
          if left.required.isSome || right.required.isSome then
            some (unionNames (left.required.getD []) (right.required.getD []))
          else none
        examples :=
          if left.examples.isSome || right.examples.isSome then
            some (combineExamples (left.examples.getD []) (right.examples.getD []))
          else none } := by
  rw [flatten?] at h
  split at h
  · rename_i mergeable
    obtain ⟨fromLeft, fromRight⟩ := Bool.and_eq_true_iff.mp mergeable
    refine ⟨fromLeft, fromRight, ?_⟩
    dsimp only at h
    by_cases given : left.properties.isSome || right.properties.isSome
    · rw [if_pos given] at h
      obtain ⟨properties, made, same⟩ := Option.bind_eq_some_iff.mp h
      obtain ⟨merged, is, rfl⟩ := Option.map_eq_some_iff.mp made
      exact ⟨some merged, .inr ⟨merged, is, rfl⟩, (Option.some.inj same).symm⟩
    · rw [if_neg given] at h
      obtain ⟨noLeft, noRight⟩ : left.properties = none ∧ right.properties = none := by
        simpa using given
      exact ⟨none, .inl ⟨noLeft, noRight, rfl⟩, (Option.some.inj h).symm⟩
  · cases h

/-- Two objects as one. What both of them require is among the properties of one or the other. -/
lemma flatten?_formed {left right : SchemaObject} (fromLeft : left.Throughout (Formed strict))
    (fromRight : right.Throughout (Formed strict))
    (apart : strict → left.propertyNames.Disjoint right.propertyNames)
    (h : flatten? left right = some s) :
    s.Throughout (Formed strict) ∧ s.reference = none ∧
      ∀ name ∈ s.propertyNames, name ∈ left.propertyNames ∨ name ∈ right.propertyNames := by
  have needed {properties : Option (List (String × SchemaObject))}
      (names : ∀ name, name ∈ Fields.names (properties.getD []) ↔
        name ∈ left.propertyNames ∨ name ∈ right.propertyNames) :
      ∀ name ∈ (if left.required.isSome || right.required.isSome then
          some (unionNames (left.required.getD []) (right.required.getD [])) else none).getD [],
        name ∈ Fields.names (properties.getD []) := by
    intro name mem
    split at mem
    · rcases mem_unionNames mem with mem | mem
      · exact (names name).mpr (.inl (fromLeft.here.required name mem))
      · exact (names name).mpr (.inr (fromRight.here.required name mem))
    · cases mem
  rw [flatten?] at h
  split at h
  · dsimp only at h
    by_cases given : left.properties.isSome || right.properties.isSome
    · rw [if_pos given] at h
      obtain ⟨properties, made, same⟩ := Option.bind_eq_some_iff.mp h
      obtain ⟨merged, is, rfl⟩ := Option.map_eq_some_iff.mp made
      obtain rfl := Option.some.inj same
      obtain ⟨each, nodup, names⟩ : (∀ t ∈ merged.map Prod.snd, t.Throughout (Formed strict)) ∧
          (Fields.names merged).Nodup ∧ ∀ name, name ∈ Fields.names merged ↔
            name ∈ left.propertyNames ∨ name ∈ right.propertyNames := by
        refine mergeProperties?_formed ?_ ?_ is
        · intro t mem
          rw [List.map_append] at mem
          rcases List.mem_append.mp mem with mem | mem
          · exact fromLeft.parts t (mem_parts.mpr (.inl mem))
          · exact fromRight.parts t (mem_parts.mpr (.inl mem))
        · intro yes
          rw [Fields.names, List.map_append]
          exact (fromLeft.here.keys yes).append (fromRight.here.keys yes) (apart yes)
      exact ⟨.ofObject each (fun _ => nodup) (needed names), rfl, fun name => (names name).mp⟩
    · rw [if_neg given] at h
      obtain rfl := Option.some.inj h
      obtain ⟨noLeft, noRight⟩ : left.properties = none ∧ right.properties = none := by
        simpa using given
      refine ⟨.ofObject ?_ (fun _ => List.nodup_nil) (needed ?_), rfl, ?_⟩
      · exact fun _ mem => absurd mem List.not_mem_nil
      · simp [propertyNames, noLeft, noRight, Fields.names]
      · exact fun _ mem => absurd mem List.not_mem_nil
  · cases h

/-- An intersection of schema objects that have no property in common. -/
lemma intersect_formed {left right : SchemaObject} (fromLeft : left.Throughout (Formed strict))
    (fromRight : right.Throughout (Formed strict))
    (apart : strict → left.propertyNames.Disjoint right.propertyNames) :
    (left.intersect right).Throughout (Formed strict) ∧ (left.intersect right).reference = none ∧
      ∀ name ∈ (left.intersect right).propertyNames,
        name ∈ left.propertyNames ∨ name ∈ right.propertyNames := by
  rw [intersect]
  cases flat : flatten? left right with
  | some s => exact flatten?_formed fromLeft fromRight apart flat
  | none =>
    refine ⟨.mk (.untyped rfl rfl rfl rfl) ?_, rfl,
      fun _ mem => absurd mem List.not_mem_nil⟩
    intro part mem
    have listed : part ∈ [left, right] := mem
    rcases List.mem_cons.mp listed with rfl | mem
    · exact fromLeft
    · obtain rfl := List.mem_singleton.mp mem
      exact fromRight

lemma ofKeys_formed (keys : List String) {value : SchemaObject}
    (formed : value.Throughout (Formed strict)) :
    (ofKeys keys value).Throughout (Formed strict) ∧
      ∀ name ∈ (ofKeys keys value).propertyNames, name ∈ keys := by
  have names (name : String) :
      name ∈ Fields.names (Fields.ofPairs (keys.map fun key => (key, value))) ↔ name ∈ keys := by
    rw [Fields.mem_names_ofPairs]
    simp [Fields.names]
  refine ⟨.ofObject ?_ (fun _ => Fields.names_ofPairs_nodup _) fun name => (names name).mpr,
    fun name => (names name).mp⟩
  intro part mem
  obtain ⟨property, inside, rfl⟩ := List.mem_map.mp mem
  obtain ⟨key, -, rfl⟩ := List.mem_map.mp (Fields.mem_of_mem_ofPairs inside)
  exact formed

end SchemaObject

namespace Document

open SchemaObject Depicter

variable {strict : Bool} {direction : Direction} {setting : Setting}
  {table : AliasTable SchemaObject} {node inner : Node} {s s' : SchemaObject}

/-- What is known of the documented view of a node. -/
structure Drawn (strict : Bool) (direction : Direction) (node : Node) (s : SchemaObject) :
    Prop where
  formed : s.Throughout (Formed strict)
  leads : s.isReference = node.leads direction
  names : s.propertyNames ⊆ node.propertyNames direction

/-- A view that is neither a reference nor has properties. -/
lemma Drawn.plain (formed : s.Throughout (Formed strict)) (single : s.reference = none)
    (closed : s.properties = none) (leads : node.leads direction = false) :
    Drawn strict direction node s where
  formed := formed
  leads := by rw [leads, isReference, single]; rfl
  names := by rw [SchemaObject.propertyNames, closed]; exact List.nil_subset _

/-- A view that is made of the view of another node. -/
lemma Drawn.through (drawn : Drawn strict direction inner s)
    (formed : s'.Throughout (Formed strict)) (reference : s'.isReference = s.isReference)
    (names : s'.propertyNames ⊆ s.propertyNames)
    (leads : node.leads direction = inner.leads direction)
    (keys : node.propertyNames direction = inner.propertyNames direction) :
    Drawn strict direction node s' where
  formed := formed
  leads := by rw [reference, drawn.leads, leads]
  names := by rw [keys]; exact List.Subset.trans names drawn.names

lemma propertyNames_orNull (s : SchemaObject) : s.orNull.propertyNames ⊆ s.propertyNames := by
  rw [orNull]
  split
  · exact List.Subset.refl _
  · split
    · exact List.Subset.refl _
    · exact List.nil_subset _

lemma isReference_orNull (s : SchemaObject) : s.orNull.isReference = s.isReference := by
  rw [orNull]
  split
  · rfl
  · rename_i single
    split
    · rfl
    · exact (Bool.eq_false_iff.mpr single).symm

lemma preprocessed_same (s : SchemaObject) :
    s.preprocessed.reference = s.reference ∧ s.preprocessed.properties = s.properties := by
  rw [preprocessed]
  split <;> exact ⟨rfl, rfl⟩

/-- What is laid over the view of a layer keeps what is known of it. -/
lemma drawn_of_annotated {kind : Kind Node} {notes : Notes}
    (drawn : Drawn strict direction (.mk kind notes) s)
    (h : depicter.replay setting table (annotate (.mk kind notes) direction s) = .ok s') :
    Drawn strict direction (.mk kind notes) s' := by
  by_cases single : s.isReference
  · rw [replay_annotate_reference single h]
    exact drawn
  · rcases replay_annotate h with rfl | ⟨nullable, description, examples, rfl⟩
    · exact drawn
    · have single := Bool.eq_false_iff.mpr single
      exact drawn.through (drawn.formed.noted single _ _ _) rfl (List.Subset.refl _) rfl rfl

/-- What is known of a transformed value is at most its type. -/
lemma formed_transformed {input : SchemaObject}
    (h : depicter.replay setting table (transformed node input) = .ok s) :
    s.Throughout (Formed strict) ∧ s.reference = none ∧ s.properties = none := by
  have isAny : any.Throughout (Formed strict) := .leaf (.untyped rfl rfl rfl rfl) rfl
  rw [transformed] at h
  split at h
  · obtain rfl := Except.ok.inj h
    exact ⟨isAny, rfl, rfl⟩
  · obtain ⟨result, -, h⟩ := replay_bind_ok h
    obtain rfl := Except.ok.inj h
    cases result with
    | ok primitive => exact ⟨.ofType _, rfl, rfl⟩
    | error cause => exact ⟨isAny, rfl, rfl⟩

/-- The view of a layer, when the views of its parts are known. -/
lemma drawn_layer {kind : Kind Node} {notes : Notes} (careful : strict → kind.Careful direction)
    (part : ∀ part ∈ kind.documentedParts direction, ∀ t,
      Viewed setting table part.2 part.1 t → Drawn strict part.2 part.1 t)
    (layer : Layer setting table direction notes kind s) :
    Drawn strict direction (.mk kind notes) s := by
  have child {node : Node} {t : SchemaObject}
      (mem : (node, direction) ∈ kind.documentedParts direction)
      (shown : Viewed setting table direction node t) : Drawn strict direction node t :=
    part (node, direction) mem t shown
  have gathered (gathers : kind.gathers) : ∀ t ∈ s.parts, t.Throughout (Formed strict) := by
    intro t mem
    obtain ⟨node, inside, shown⟩ := layer.parts_viewed gathers mem
    exact (child inside shown).formed
  cases layer with
  | string | number | bigint | boolean | date | null | literal | choice | array _ | tuple _
  | longTuple _ _ | record _ _ | emptyRecord _ =>
    exact .plain (.mk (.typed rfl rfl rfl rfl) (gathered rfl)) rfl rfl rfl
  | any | unknown | union _ | taggedUnion _ =>
    exact .plain (.mk (.untyped rfl rfl rfl rfl) (gathered rfl)) rfl rfl rfl
  | @object shape properties required shown =>
    have same := replay_walkShape_names shown
    refine ⟨.ofObject ?_ ?_ ?_, rfl, ?_⟩
    · exact fun t mem => gathered rfl t (mem_parts.mpr (.inl mem))
    · intro yes
      rw [Option.getD_some, same]
      exact careful yes
    · intro name mem
      rw [Option.getD_some, same]
      have mem : name ∈ required := by
        cases required with
        | nil => cases mem
        | cons => exact mem
      obtain ⟨node, inside, -⟩ := (replay_walkShape shown).2 name mem
      exact List.mem_map_of_mem inside
    · change Fields.names properties ⊆ Fields.names shape
      rw [same]
      exact List.Subset.refl _
  | @listedRecord _ _ first keys _ listed shown =>
    have drawn := child (by simp [Kind.documentedParts, listed]) shown
    obtain ⟨formed, names⟩ := ofKeys_formed (first :: keys) drawn.formed
    refine ⟨formed, rfl, ?_⟩
    intro name mem
    have inside := names name mem
    simp only [Node.propertyNames, listed]
    exact inside
  | intersection shownLeft shownRight =>
    have fromLeft := child (by simp [Kind.documentedParts, Kind.parts, Kind.children]) shownLeft
    have fromRight := child (by simp [Kind.documentedParts, Kind.parts, Kind.children]) shownRight
    obtain ⟨formed, single, names⟩ := intersect_formed fromLeft.formed fromRight.formed fun yes =>
      List.disjoint_of_subset_left fromLeft.names
        (List.disjoint_of_subset_right fromRight.names (careful yes))
    refine ⟨formed, by rw [isReference, single]; rfl, ?_⟩
    intro name mem
    rcases names name mem with mem | mem
    · exact List.mem_append_left _ (fromLeft.names mem)
    · exact List.mem_append_right _ (fromRight.names mem)
  | optional shown | readonly shown | branded shown | fallback shown | refine shown
  | untried shown _ =>
    have drawn := child (List.mem_singleton_self _) shown
    exact drawn.through drawn.formed rfl (List.Subset.refl _) rfl rfl
  | pipeline shown =>
    have drawn := child (List.mem_singleton_self _) shown
    cases direction <;> exact drawn.through drawn.formed rfl (List.Subset.refl _) rfl rfl
  | @nullable _ t shown =>
    have drawn := child (List.mem_singleton_self _) shown
    exact drawn.through drawn.formed.orNull (isReference_orNull t) (propertyNames_orNull t) rfl rfl
  | default shown =>
    have drawn := child (List.mem_singleton_self _) shown
    refine drawn.through (drawn.formed.change rfl rfl rfl ?_ ?_) rfl (List.Subset.refl _) rfl rfl
    · intro yes
      have single := drawn.leads.trans (careful yes)
      simpa [isReference] using single
    · exact drawn.formed.here.types
  | tried _ shown itself seen =>
    have drawn := child (List.mem_singleton_self _) shown
    obtain ⟨formed, plain, closed⟩ := formed_transformed seen
    exact .plain formed plain closed (drawn.leads.symm.trans itself)
  | @preprocess _ _ t shown =>
    have drawn := child (List.mem_singleton_self _) shown
    obtain ⟨reference, properties⟩ := preprocessed_same t
    split
    · exact drawn.through drawn.formed rfl (List.Subset.refl _) rfl rfl
    · refine drawn.through drawn.formed.preprocessed ?_ ?_ rfl rfl
      · rw [isReference, reference, isReference]
      · rw [SchemaObject.propertyNames, properties]
        exact List.Subset.refl _
  | reference _ => exact ⟨.leaf (.refer _) rfl, rfl, List.nil_subset _⟩

/-- The view of a node. The induction is on its size, from each layer to its documented parts. -/
lemma drawn_of_replay (careful : strict → node.Careful direction)
    (h : depicter.replay setting table (walk direction node) = .ok s) :
    Drawn strict direction node s := by
  induction size : sizeOf node using Nat.strong_induction_on generalizing node direction s with
  | h n ih =>
    subst size
    obtain ⟨kind, notes⟩ := node
    obtain ⟨view, layer, annotated⟩ := layer_of_replay h
    refine drawn_of_annotated (drawn_layer ?_ ?_ layer) annotated
    · exact fun yes => (Node.careful_mk.mp (careful yes)).1
    · intro part mem t shown
      have near := Kind.near_of_mem_parts (kind.documentedParts_subset direction mem)
      exact ih _ (near.sizeOf_lt notes)
        (fun yes => (Node.careful_mk.mp (careful yes)).2 part mem) shown rfl

end Document

namespace Depicter

variable {U : Type} {depicter : Depicter U} {setting : Setting} {asked : String → Prop}
  {table later final : AliasTable U} {calls : List (Node × Direction)}

/-- Whether every entry without definition holds the placeholder. -/
def Provisional (depicter : Depicter U) (table : AliasTable U) : Prop :=
  ∀ key entry, table.get? key = some entry → entry.resolved = false →
    entry.definition = depicter.placeholder

lemma Provisional.reserve (provisional : depicter.Provisional table) (key : String) :
    depicter.Provisional (table.reserve key depicter.placeholder) := by
  intro other entry found pending
  rw [AliasTable.get?_reserve] at found
  by_cases same : key = other
  · rw [if_pos same] at found
    obtain rfl := Option.some.inj found
    rfl
  · rw [if_neg same] at found
    exact provisional other entry found pending

lemma Provisional.resolve (provisional : depicter.Provisional table) (key : String) (view : U) :
    depicter.Provisional (table.resolve key view) := by
  intro other entry found pending
  cases here : table.get? key with
  | none =>
    rw [AliasTable.resolve, here] at found
    exact provisional other entry found pending
  | some old =>
    rw [AliasTable.get?_resolve here] at found
    by_cases same : key = other
    · rw [if_pos same] at found
      obtain rfl := Option.some.inj found
      cases pending
    · rw [if_neg same] at found
      exact provisional other entry found pending

lemma Runs.provisional {w : Walk U U} {visits : List Visit} {result : Except Halt U}
    (h : depicter.Runs setting table w visits result later)
    (provisional : depicter.Provisional table) : depicter.Provisional later := by
  induction h with
  | done => exact provisional
  | halt => exact provisional
  | ask _ ih => exact ih provisional
  | known _ _ ih => exact ih provisional
  | produced _ _ _ bodyIH restIH =>
    exact restIH ((bodyIH (provisional.reserve _)).resolve _ _)
  | failed _ _ bodyIH => exact bodyIH (provisional.reserve _)

/-- After a session, its results are replayed and so are the definitions that were made on the way.
All other definitions are placeholders. -/
lemma RunsAll.replayed {visits : List (List Visit)} {results : List (Except Halt U)}
    (h : depicter.RunsAll setting table calls visits results later)
    (within : depicter.AsksWithin setting asked)
    (asks : ∀ call ∈ calls, (depicter.walk call.1 call.2).Asks asked) (ext : later.Extends final)
    (settled : depicter.SettledIn setting asked final table)
    (provisional : depicter.Provisional table) :
    (∀ view, .ok view ∈ results →
      ∃ call ∈ calls, depicter.replay setting final (depicter.walk call.1 call.2) = .ok view) ∧
    depicter.SettledIn setting asked final later ∧ depicter.Provisional later := by
  induction h with
  | nil => exact ⟨fun _ mem => absurd mem List.not_mem_nil, settled, provisional⟩
  | cons first rest ih =>
    have grown := rest.extends.trans ext
    obtain ⟨shown, done⟩ := ih (fun call mem => asks call (List.mem_cons_of_mem _ mem)) ext
      (first.settled within (asks _ List.mem_cons_self) grown settled)
      (first.provisional provisional)
    refine ⟨?_, done⟩
    intro view mem
    rcases List.mem_cons.mp mem with here | mem
    · exact ⟨_, List.mem_cons_self, first.replayed grown here.symm⟩
    · obtain ⟨call, inside, replayed⟩ := shown view mem
      exact ⟨call, List.mem_cons_of_mem _ inside, replayed⟩

/-- What a session produces: its results, and the definitions of its aliases. -/
def Produces (depicter : Depicter U) (setting : Setting) (calls : List (Node × Direction))
    (view : U) : Prop :=
  .ok view ∈ (depicter.session setting calls depicter.noAliases).1 ∨
    ∃ name, (name, view) ∈ (depicter.session setting calls depicter.noAliases).2.definitions

/-- What a session produces is the view of one of its nodes or of the body of a reference, or it is
the placeholder. -/
lemma Produces.replayed {rename : (String → String) → U → U} (uniform : depicter.Uniform rename)
    (closed : setting.Closed asked)
    (inScope : ∀ call ∈ calls, ∀ target, call.1.Refers target → asked target) {view : U}
    (produces : depicter.Produces setting calls view) :
    view = depicter.placeholder ∨ ∃ final node direction,
      ((node, direction) ∈ calls ∨ ∃ target, asked target ∧ node = setting.resolve target) ∧
      depicter.replay setting final (depicter.walk node direction) = .ok view := by
  obtain ⟨visits, run⟩ := runsAll_session setting uniform.unknown calls depicter.noAliases
  obtain ⟨results, settled, provisional⟩ := run.replayed (uniform.within closed)
    (fun call mem => (uniform.asks call.1 call.2).mono (inScope call mem)) (.refl _)
    (fun _ _ found => by cases found) (fun _ _ found => by cases found)
  rcases produces with mem | ⟨name, mem⟩
  · obtain ⟨call, inside, replayed⟩ := results view mem
    exact .inr ⟨_, call.1, call.2, .inl inside, replayed⟩
  · obtain ⟨⟨key, entry⟩, inside, same⟩ := List.mem_map.mp mem
    obtain ⟨-, rfl⟩ := Prod.mk.inj same
    have found := Fields.get?_of_mem (run.numbered (.empty depicter.stem)).keys_nodup inside
    cases resolved : entry.resolved with
    | false => exact .inl (provisional key entry found resolved)
    | true =>
      obtain ⟨target, direction, mem, -, replayed⟩ := settled key entry found resolved
      exact .inr ⟨_, _, direction, .inr ⟨target, mem, rfl⟩, replayed⟩

end Depicter

namespace Document

open SchemaObject

variable {setting : Setting} {calls : List (Node × Direction)} {s : SchemaObject}

lemma formed_of_produces {strict : Bool} {asked : String → Prop} (closed : setting.Closed asked)
    (inScope : ∀ call ∈ calls, ∀ target, call.1.Refers target → asked target)
    (careful : strict → ∀ call ∈ calls, call.1.Careful call.2)
    (bodies : strict → ∀ target, asked target → ∀ direction,
      (setting.resolve target).Careful direction)
    (produces : depicter.Produces setting calls s) : s.Throughout (Formed strict) := by
  rcases produces.replayed uniform closed inScope with
    rfl | ⟨final, node, direction, isCall | ⟨target, mem, rfl⟩, replayed⟩
  · exact .leaf (.untyped rfl rfl rfl rfl) rfl
  · exact (drawn_of_replay (fun yes => careful yes _ isCall) replayed).formed
  · exact (drawn_of_replay (fun yes => bodies yes target mem direction) replayed).formed

/-- A default is laid over a reference. -/
lemma default_over_reference {direction : Direction} {node : Node} {value : Json} {notes : Notes}
    {table later : AliasTable SchemaObject} (leads : node.leads direction = true)
    (ok : depict setting direction (.mk (.default node value) notes) table = (.ok s, later)) :
    ∃ target, s.reference = some target ∧ s.default = some value := by
  have replayed := Depicter.replay_of_depict uniform.unknown ok
  obtain ⟨view, layer, annotated⟩ := layer_of_replay replayed
  cases layer with
  | @default _ _ t shown =>
    have known : Drawn false direction node t := drawn_of_replay Bool.noConfusion shown
    have single : ({ t with default := some value } : SchemaObject).isReference :=
      known.leads.trans leads
    obtain rfl := replay_annotate_reference single annotated
    obtain ⟨target, is⟩ := Option.isSome_iff_exists.mp single
    exact ⟨target, is, rfl⟩

end Document

/-- Which schema objects are well formed, among the results and the components of any calls. What is
required is a property always, at every depth. References stand alone and types are listed once at
every depth, where no layer of the nodes and of the schemas that they refer to is careless; and a
default over what stands for another schema is next to a reference always. -/
theorem documented_schemas_are_formed (setting : Setting) (calls : List (Node × Direction)) :
    (∀ s, Document.depicter.Produces setting calls s →
      s.Throughout fun t => ∀ name ∈ t.required.getD [], name ∈ t.propertyNames) ∧
    (∀ asked, setting.Closed asked →
      (∀ call ∈ calls, call.1.Careful call.2 ∧ ∀ target, call.1.Refers target → asked target) →
      (∀ target, asked target → ∀ direction, (setting.resolve target).Careful direction) →
      ∀ s, Document.depicter.Produces setting calls s → s.Throughout (SchemaObject.Formed true)) ∧
    ∀ direction node value notes table s later, Node.leads direction node = true →
      Document.depict setting direction (.mk (.default node value) notes) table = (.ok s, later) →
      ∃ target, s.reference = some target ∧ s.default = some value := by
  refine ⟨?_, ?_, ?_⟩
  · intro s produces
    have closed : setting.Closed fun _ => True := fun _ _ _ _ => trivial
    have formed : s.Throughout (SchemaObject.Formed false) :=
      Document.formed_of_produces closed (fun _ _ _ _ => trivial) Bool.noConfusion
        Bool.noConfusion produces
    exact formed.imp fun _ here => here.required
  · intro asked closed careful bodies s produces
    exact Document.formed_of_produces closed (fun call mem => (careful call mem).2)
      (fun _ call mem => (careful call mem).1) (fun _ => bodies) produces
  · intro direction node value notes table s later
    exact Document.default_over_reference

/-- Ships with a name that may be missing, and with an escort. -/
def harbourSetting : Setting where
  library := { definitions := [("Ship", .of (.object [
    ("name", .of (.nullable (.of (.string {})))),
    ("escort", .of (.optional (.of (.reference "ship" "Ship"))))]))] }
  fingerprint node := node.kindName

/-- A ship and its place. -/
def mooring : Node := .of (.intersection
  (.of (.object [("ship", .of (.reference "ship" "Ship"))]))
  (.of (.object [("place", .of (.nullable (.of (.string {}))))])))

/-- A ship that is another one when nothing is said. -/
def relief : Node := .of (.default (.of (.reference "ship" "Ship")) (.object []))

theorem harbour_schemas_are_formed :
    (∃ s, Document.depicter.Produces harbourSetting [(mooring, .output)] s ∧
      s.propertyNames = ["ship", "place"] ∧ s.Throughout (SchemaObject.Formed true)) ∧
    ∃ s table target,
      Document.depict harbourSetting .input relief Document.noComponents = (.ok s, table) ∧
      s.reference = some target ∧ s.default = some (.object []) := by
  obtain ⟨-, careful, -⟩ := documented_schemas_are_formed harbourSetting [(mooring, .output)]
  obtain ⟨-, -, laid⟩ := documented_schemas_are_formed harbourSetting []
  constructor
  · have closed : harbourSetting.Closed (· = "Ship") := by
      rintro target rfl other refers
      simpa [harbourSetting, Setting.resolve, Definitions.resolve, Fields.get?, Node.of,
        Node.refers_mk, Kind.children, eq_comm] using refers
    refine ⟨_, .inl List.mem_cons_self, rfl,
      careful (· = "Ship") closed ?_ ?_ _ (.inl List.mem_cons_self)⟩
    · simp [mooring, Node.of, Node.careful_mk, Node.refers_mk, Kind.Careful,
        Kind.documentedParts, Kind.parts, Kind.children, Node.propertyNames, Fields.names]
    · simp [harbourSetting, Setting.resolve, Definitions.resolve, Fields.get?, Node.of,
        Node.careful_mk, Kind.Careful, Kind.documentedParts, Kind.parts, Kind.children,
        Fields.names]
  · obtain ⟨s, table, depicted⟩ : ∃ s table,
      Document.depict harbourSetting .input relief Document.noComponents = (.ok s, table) :=
        ⟨_, _, rfl⟩
    obtain ⟨target, single, default⟩ := laid .input _ _ _ _ s table rfl depicted
    exact ⟨s, table, target, depicted, single, default⟩

/-- Two schemas of a place that may be missing. -/
def berth : Node :=
  let side := Node.of (.object [("place", .of (.nullable (.of (.string {}))))])
  .of (.intersection side side)

/-- A default stands next to a reference, and a property of both sides has its types twice. -/
theorem harbour_schemas_are_not_formed :
    (∃ s table, Document.depict harbourSetting .input relief Document.noComponents =
        (.ok s, table) ∧ s.reference = some (SchemaObject.componentPath "Schema1") ∧
      s.default = some (.object [])) ∧
    ∃ s table part, Document.depict harbourSetting .input berth Document.noComponents =
        (.ok s, table) ∧ part ∈ s.parts ∧
      part.typeNames = some (.many ["string", "null", "string", "null"]) :=
  ⟨⟨_, _, rfl, rfl, rfl⟩, _, _, _, rfl, List.mem_cons_self, rfl⟩

end EventContracts
