import EventContracts.Document.Depiction
import EventContracts.Proofs.OrderedFields
import Mathlib.Data.Option.Defs
import Mathlib.Logic.Function.Basic

/-! Other names for the references in a schema object. Merging schemas of plain objects goes through
JSON values, so a renaming is also described there: it changes the texts under `$ref`, and it goes
into the places of a schema object that hold further schema objects. -/

namespace EventContracts

/-- What further parts of a value may be, with other schemas. -/
def Further.map {α β : Type} (g : α → β) : Further α → Further β
  | allowed yes => allowed yes
  | schema s => schema (g s)

/-- The items of an array with other schemas. -/
def Items.map {α β : Type} (g : α → β) : Items α → Items β
  | positional schemas => positional (schemas.map g)
  | each s => each (g s)

/-- The schemas of what further parts of a value may be. -/
def Further.parts {α : Type} : Further α → List α
  | allowed _ => []
  | schema s => [s]

/-- The schemas of the items of an array. -/
def Items.parts {α : Type} : Items α → List α
  | positional schemas => schemas
  | each s => [s]

namespace SchemaObject

mutual

/-- The same schema with other names for its references. -/
def rename (f : String → String) : SchemaObject → SchemaObject
  | { reference, typeNames, format, description, properties, required, additionalProperties, items,
      additionalItems, choices, oneOf, allOf, discriminator, default, examples, minimum, maximum,
      exclusiveMinimum, exclusiveMaximum, minLength, maxLength, minItems, maxItems, pattern } =>
    { typeNames, format, description, required, choices, discriminator, default, examples, minimum,
      maximum, exclusiveMinimum, exclusiveMaximum, minLength, maxLength, minItems, maxItems, pattern
      reference := reference.map f
      properties := renameProperties? f properties
      additionalProperties := renameFurther? f additionalProperties
      items := renameItems? f items
      additionalItems := renameFurther? f additionalItems
      oneOf := renameSchemas? f oneOf
      allOf := renameSchemas? f allOf }
termination_by structural s => s

/-- Named schemas, if there are any, with other names for their references. -/
def renameProperties? (f : String → String) :
    Option (List (String × SchemaObject)) → Option (List (String × SchemaObject))
  | some properties => some (renameProperties f properties)
  | none => none
termination_by structural properties => properties

/-- What further parts may be with other names for the references. -/
def renameFurther? (f : String → String) :
    Option (Further SchemaObject) → Option (Further SchemaObject)
  | some (.allowed yes) => some (.allowed yes)
  | some (.schema s) => some (.schema (rename f s))
  | none => none
termination_by structural further => further

/-- The items of an array with other names for their references. -/
def renameItems? (f : String → String) : Option (Items SchemaObject) → Option (Items SchemaObject)
  | some (.positional schemas) => some (.positional (renameList f schemas))
  | some (.each s) => some (.each (rename f s))
  | none => none
termination_by structural items => items

/-- A list of schemas, if there is one, with other names for their references. -/
def renameSchemas? (f : String → String) :
    Option (List SchemaObject) → Option (List SchemaObject)
  | some schemas => some (renameList f schemas)
  | none => none
termination_by structural schemas => schemas

/-- The schemas of a list with other names for their references. -/
def renameList (f : String → String) : List SchemaObject → List SchemaObject
  | [] => []
  | s :: rest => rename f s :: renameList f rest
termination_by structural schemas => schemas

/-- Named schemas with other names for their references. -/
def renameProperties (f : String → String) :
    List (String × SchemaObject) → List (String × SchemaObject)
  | [] => []
  | (name, s) :: rest => (name, rename f s) :: renameProperties f rest
termination_by structural properties => properties

end

variable {f : String → String}

lemma renameList_eq_map (schemas : List SchemaObject) :
    renameList f schemas = schemas.map (rename f) := by
  induction schemas with
  | nil => rfl
  | cons s rest ih => rw [renameList, ih]; rfl

lemma renameProperties_eq_mapValues (properties : List (String × SchemaObject)) :
    renameProperties f properties = Fields.mapValues (rename f) properties := by
  induction properties with
  | nil => rfl
  | cons field rest ih => rw [renameProperties, ih]; rfl

/-- A renaming goes into the places that hold schemas, and keeps all others. -/
lemma rename_eq (s : SchemaObject) :
    s.rename f = { s with
      reference := s.reference.map f
      properties := s.properties.map (Fields.mapValues (rename f))
      additionalProperties := s.additionalProperties.map (Further.map (rename f))
      items := s.items.map (Items.map (rename f))
      additionalItems := s.additionalItems.map (Further.map (rename f))
      oneOf := s.oneOf.map (List.map (rename f))
      allOf := s.allOf.map (List.map (rename f)) } := by
  obtain ⟨_, _, _, _, properties, _, further, items, furtherItems, _, oneOf, allOf⟩ := s
  have properties_eq : renameProperties? f properties =
      properties.map (Fields.mapValues (rename f)) := by
    cases properties <;> simp [renameProperties?, renameProperties_eq_mapValues]
  have further_eq (a : Option (Further SchemaObject)) :
      renameFurther? f a = a.map (Further.map (rename f)) := by
    rcases a with _ | _ | _ <;> rfl
  have items_eq : renameItems? f items = items.map (Items.map (rename f)) := by
    rcases items with _ | _ | _ <;> simp [renameItems?, Items.map, renameList_eq_map]
  have schemas_eq (a : Option (List SchemaObject)) :
      renameSchemas? f a = a.map (List.map (rename f)) := by
    cases a <;> simp [renameSchemas?, renameList_eq_map]
  rw [rename, properties_eq, further_eq, items_eq, further_eq, schemas_eq, schemas_eq]

/-- The schemas that a schema is made of. -/
def parts (s : SchemaObject) : List SchemaObject :=
  (s.properties.getD []).map Prod.snd ++ (s.additionalProperties.map Further.parts).getD [] ++
    (s.items.map Items.parts).getD [] ++ (s.additionalItems.map Further.parts).getD [] ++
    s.oneOf.getD [] ++ s.allOf.getD []

lemma mem_parts {s part : SchemaObject} : part ∈ s.parts ↔
    part ∈ (s.properties.getD []).map Prod.snd ∨
      part ∈ (s.additionalProperties.map Further.parts).getD [] ∨
      part ∈ (s.items.map Items.parts).getD [] ∨
      part ∈ (s.additionalItems.map Further.parts).getD [] ∨
      part ∈ s.oneOf.getD [] ∨ part ∈ s.allOf.getD [] := by
  simp only [parts, List.mem_append, or_assoc]

/-- Whether a schema carries a reference, at any depth. -/
inductive Carries (target : String) : SchemaObject → Prop where
  | here {s : SchemaObject} (eq : s.reference = some target) : Carries target s
  | part {s part : SchemaObject} (mem : part ∈ s.parts) (carries : Carries target part) :
      Carries target s

lemma parts_rename (s : SchemaObject) : (s.rename f).parts = s.parts.map (rename f) := by
  have properties (ps : Option (List (String × SchemaObject))) :
      ((ps.map (Fields.mapValues (rename f))).getD []).map Prod.snd =
        ((ps.getD []).map Prod.snd).map (rename f) := by
    cases ps <;> simp [Fields.mapValues]
  have further (a : Option (Further SchemaObject)) :
      (((a.map (Further.map (rename f))).map Further.parts).getD []) =
        ((a.map Further.parts).getD []).map (rename f) := by
    rcases a with _ | _ | _ <;> rfl
  have items (a : Option (Items SchemaObject)) :
      (((a.map (Items.map (rename f))).map Items.parts).getD []) =
        ((a.map Items.parts).getD []).map (rename f) := by
    rcases a with _ | _ | _ <;> rfl
  have list (a : Option (List SchemaObject)) :
      (a.map (List.map (rename f))).getD [] = (a.getD []).map (rename f) := by
    cases a <;> rfl
  rw [rename_eq]
  simp only [parts, List.map_append]
  rw [properties, further, items, further, list, list]

/-- A renaming that changes nothing in a schema keeps every reference that the schema carries. -/
lemma Carries.fixed {target : String} {s : SchemaObject} (h : Carries target s)
    (same : s.rename f = s) : f target = target := by
  induction h with
  | @here s eq =>
    have := congrArg reference same
    rw [rename_eq] at this
    simpa [eq] using this
  | @part s part mem _ ih =>
    have all : s.parts.map (rename f) = s.parts := by rw [← parts_rename, same]
    exact ih (List.map_inj_left.mp (all.trans (List.map_id _).symm) part mem)

lemma sizeOf_lt_of_mem_parts {s part : SchemaObject} (h : part ∈ s.parts) :
    sizeOf part < sizeOf s := by
  have named {a : Option (List (String × SchemaObject))}
      (mem : part ∈ (a.getD []).map Prod.snd) : sizeOf part < sizeOf a := by
    obtain ⟨⟨name, t⟩, pair, rfl⟩ := List.mem_map.mp mem
    cases a with
    | none => cases pair
    | some ps =>
      have less : sizeOf (name, t) < sizeOf ps := List.sizeOf_lt_of_mem pair
      simp only [Prod.mk.sizeOf_spec, Option.some.sizeOf_spec] at less ⊢
      omega
  have further {a : Option (Further SchemaObject)}
      (mem : part ∈ (a.map Further.parts).getD []) : sizeOf part < sizeOf a := by
    rcases a with _ | _ | t
    · cases mem
    · cases mem
    · obtain rfl := List.mem_singleton.mp mem
      simp only [Option.some.sizeOf_spec, Further.schema.sizeOf_spec]
      omega
  have items {a : Option (Items SchemaObject)}
      (mem : part ∈ (a.map Items.parts).getD []) : sizeOf part < sizeOf a := by
    rcases a with _ | schemas | t
    · cases mem
    · have less : sizeOf part < sizeOf schemas := List.sizeOf_lt_of_mem mem
      simp only [Option.some.sizeOf_spec, Items.positional.sizeOf_spec]
      omega
    · obtain rfl := List.mem_singleton.mp mem
      simp only [Option.some.sizeOf_spec, Items.each.sizeOf_spec]
      omega
  have list {a : Option (List SchemaObject)} (mem : part ∈ a.getD []) :
      sizeOf part < sizeOf a := by
    cases a with
    | none => cases mem
    | some schemas =>
      have less : sizeOf part < sizeOf schemas := List.sizeOf_lt_of_mem mem
      simp only [Option.some.sizeOf_spec]
      omega
  obtain ⟨_, _, _, _, ps, _, fs, is, gs, _, os, as⟩ := s
  simp only [mem_parts] at h
  simp only [mk.sizeOf_spec]
  rcases h with mem | mem | mem | mem | mem | mem
  · have := named mem; omega
  · have := further mem; omega
  · have := items mem; omega
  · have := further mem; omega
  · have := list mem; omega
  · have := list mem; omega

/-- Induction over schemas: what holds of a schema when it holds of its parts holds of all. -/
lemma induct {P : SchemaObject → Prop} (step : ∀ s, (∀ part ∈ s.parts, P part) → P s)
    (s : SchemaObject) : P s :=
  step s fun part _ => induct step part
termination_by sizeOf s
decreasing_by exact sizeOf_lt_of_mem_parts ‹_›

end SchemaObject

end EventContracts
