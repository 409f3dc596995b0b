import EventContracts.Document.Depiction
import Mathlib.Data.List.Forall2
import Mathlib.Tactic.Lemma

/-! When a value fits a schema object. A schema that stands for another one asks for what its
component asks for. Any other schema has keywords for the value itself, and demands that parts of
the value fit schemas in turn. Components may refer to one another, so fitting is the least relation
with these rules. -/

namespace EventContracts

/-- Whether a number has no fractional part. -/
def Number.isIntegral : Number → Bool
  | whole _ => true
  | double d => d.isWhole

/-- Whether a value is of a type that schema objects name. -/
def Json.hasType (name : String) : Json → Bool
  | null => name == "null"
  | bool _ => name == "boolean"
  | number n => name == "number" || name == "integer" && n.isIntegral
  | string _ => name == "string"
  | array _ => name == "array"
  | object _ => name == "object"

namespace SchemaObject

/-- What a schema asks of a value itself. -/
structure Meets (s : SchemaObject) (v : Json) : Prop where
  type : ∀ t, s.typeNames = some t → ∃ name ∈ t.names, v.hasType name := by nofun
  choice : ∀ values, s.choices = some values → ∃ value ∈ values, v.same value := by nofun
  minLength : ∀ least text, s.minLength = some least → v = .string text →
    least ≤ text.length := by nofun
  maxLength : ∀ most text, s.maxLength = some most → v = .string text →
    text.length ≤ most := by nofun
  minItems : ∀ least items, s.minItems = some least → v = .array items →
    least ≤ items.length := by nofun
  maxItems : ∀ most items, s.maxItems = some most → v = .array items →
    items.length ≤ most := by nofun
  required : ∀ names fields, s.required = some names → v = .object fields →
    ∀ name ∈ names, name ∈ Fields.names fields := by nofun
  noFurther : ∀ schemas items, s.items = some (.positional schemas) →
    s.additionalItems = some (.allowed false) → v = .array items →
    items.length ≤ schemas.length := by nofun

/-- The schemas of named properties, each with the value of its property if there is one. -/
def propertyDemands (properties : List (String × SchemaObject)) (fields : Fields Json) :
    List (SchemaObject × Json) :=
  properties.filterMap fun property =>
    (Fields.get? property.1 fields).map fun value => (property.2, value)

/-- The schemas of further parts, each with one of the parts. -/
def furtherDemands (further : Option (Further SchemaObject)) (values : List Json) :
    List (SchemaObject × Json) :=
  match further with
  | some (.schema s) => values.map fun v => (s, v)
  | _ => []

/-- The parts of a value, with the schemas that they have to fit. -/
def demands (s : SchemaObject) : Json → List (SchemaObject × Json)
  | .object fields =>
    propertyDemands (s.properties.getD []) fields ++
      furtherDemands s.additionalProperties (fields.map Prod.snd)
  | .array items => match s.items with
    | some (.each schema) => items.map fun v => (schema, v)
    | some (.positional schemas) =>
      schemas.zip items ++ furtherDemands s.additionalItems (items.drop schemas.length)
    | none => []
  | _ => []

/-- Whether a value fits one of several schemas. -/
inductive AnyFits (fits : SchemaObject → Json → Prop) : List SchemaObject → Json → Prop where
  | here {s : SchemaObject} {rest : List SchemaObject} {v : Json} (h : fits s v) :
      AnyFits fits (s :: rest) v
  | there {s : SchemaObject} {rest : List SchemaObject} {v : Json} (h : AnyFits fits rest v) :
      AnyFits fits (s :: rest) v

/-- Whether a value fits a schema whose references are to the components. -/
inductive Fits (components : Fields SchemaObject) : SchemaObject → Json → Prop where
  | reference {s target : SchemaObject} {v : Json} {name : String}
      (refers : s.reference = some (componentPath name))
      (found : Fields.get? name components = some target) (fits : Fits components target v) :
      Fits components s v
  | direct {s : SchemaObject} {v : Json} (plain : s.reference = none) (meets : s.Meets v)
      (parts : ∀ part ∈ s.demands v, Fits components part.1 part.2)
      (oneOf : ∀ options, s.oneOf = some options → AnyFits (Fits components) options v)
      (allOf : ∀ members, s.allOf = some members → ∀ member ∈ members, Fits components member v) :
      Fits components s v

variable {components : Fields SchemaObject} {s : SchemaObject} {v : Json}

/-- A value that has the type of a schema and no parts that it asks for. -/
lemma Meets.fits (meets : s.Meets v) (plain : s.reference = none) (oneOf : s.oneOf = none)
    (allOf : s.allOf = none) (none : s.demands v = []) : Fits components s v := by
  refine .direct plain meets ?_ ?_ ?_
  · rw [none]
    exact nofun
  · rw [oneOf]
    exact nofun
  · rw [allOf]
    exact nofun

lemma hasType_one {name : String} (has : v.hasType name) (t : TypeNames)
    (eq : (some (.one name) : Option TypeNames) = some t) : ∃ other ∈ t.names, v.hasType other := by
  obtain rfl := Option.some.inj eq
  exact ⟨name, List.mem_singleton_self _, has⟩

/-- The schema for anything asks for nothing; the others differ from it by the keywords they have. -/
lemma any_meets : any.Meets v := {}

lemma any_fits : Fits components any v :=
  any_meets.fits rfl rfl rfl (by cases v <;> rfl)

lemma ofType_fits {name : String} {format : Option String} (has : v.hasType name) :
    Fits components { ofType name with format := format } v :=
  Meets.fits { any_meets with type := hasType_one has } rfl rfl rfl (by cases v <;> rfl)

lemma mem_propertyDemands {properties : List (String × SchemaObject)} {fields : Fields Json}
    {part : SchemaObject × Json} (mem : part ∈ propertyDemands properties fields) :
    ∃ name, (name, part.1) ∈ properties ∧ Fields.get? name fields = some part.2 := by
  obtain ⟨⟨name, schema⟩, inside, eq⟩ := List.mem_filterMap.mp mem
  obtain ⟨value, found, rfl⟩ := Option.map_eq_some_iff.mp eq
  exact ⟨name, inside, found⟩

lemma fits_array {item : SchemaObject} {items : List Json} {least most : Option Nat}
    (long : ∀ n, least = some n → n ≤ items.length) (short : ∀ n, most = some n → items.length ≤ n)
    (each : ∀ v ∈ items, Fits components item v) :
    Fits components { ofType "array" with
      items := some (.each item), minItems := least, maxItems := most } (.array items) := by
  refine .direct rfl { any_meets with
    type := hasType_one rfl
    minItems := fun n other eq same => ?_
    maxItems := fun n other eq same => ?_
    noFurther := nofun } (fun part mem => ?_) nofun nofun
  · obtain rfl := Json.array.inj same
    exact long n eq
  · obtain rfl := Json.array.inj same
    exact short n eq
  · obtain ⟨v, inside, rfl⟩ := List.mem_map.mp mem
    exact each v inside

/-- Items by position, and further items where they are allowed. -/
lemma fits_tuple {schemas : List SchemaObject} {further : Further SchemaObject}
    {first more : List Json} (positions : List.Forall₂ (Fits components) schemas first)
    (none : further = .allowed false → more = [])
    (each : ∀ s, further = .schema s → ∀ v ∈ more, Fits components s v) :
    Fits components { ofType "array" with
      items := some (.positional schemas), additionalItems := some further }
      (.array (first ++ more)) := by
  have count := positions.length_eq
  refine .direct rfl { any_meets with
    type := hasType_one rfl
    noFurther := fun others items eq closed same => ?_ } (fun part mem => ?_) nofun nofun
  · obtain rfl := Items.positional.inj (Option.some.inj eq)
    obtain rfl := Json.array.inj same
    simp [none (Option.some.inj closed), count]
  · change part ∈ schemas.zip (first ++ more) ++
      furtherDemands (some further) ((first ++ more).drop schemas.length) at mem
    rcases List.mem_append.mp mem with mem | mem
    · rw [← List.append_nil schemas, List.zip_append count, List.zip_nil_left,
        List.append_nil] at mem
      exact (List.forall₂_iff_zip.mp positions).2 mem
    · rw [count, List.drop_left] at mem
      cases further with
      | allowed yes => cases mem
      | schema s =>
        obtain ⟨v, inside, rfl⟩ := List.mem_map.mp mem
        exact each s rfl v inside

lemma fits_object {properties : List (String × SchemaObject)} {required : List String}
    {fields : Fields Json}
    (each : ∀ property ∈ properties, ∀ v, Fields.get? property.1 fields = some v →
      Fits components property.2 v)
    (needed : ∀ name ∈ required, name ∈ Fields.names fields) :
    Fits components { ofType "object" with
      properties := some properties
      required := if required.isEmpty then none else some required } (.object fields) := by
  refine .direct rfl { any_meets with
    type := hasType_one rfl
    required := fun names others eq same => ?_ } (fun part mem => ?_) nofun nofun
  · obtain rfl := Json.object.inj same
    dsimp only at eq
    split at eq
    · cases eq
    · obtain rfl := Option.some.inj eq
      exact needed
  · change part ∈ propertyDemands properties fields ++ [] at mem
    rw [List.append_nil] at mem
    obtain ⟨name, inside, found⟩ := mem_propertyDemands mem
    exact each _ inside _ found

lemma fits_record {value : SchemaObject} {fields : Fields Json}
    (each : ∀ field ∈ fields, Fits components value field.2) :
    Fits components { ofType "object" with additionalProperties := some (.schema value) }
      (.object fields) := by
  refine .direct rfl { any_meets with type := hasType_one rfl } (fun part mem => ?_) nofun nofun
  obtain ⟨v, inside, rfl⟩ := List.mem_map.mp mem
  obtain ⟨field, here, rfl⟩ := List.mem_map.mp inside
  exact each field here

lemma anyFits_of_mem {fits : SchemaObject → Json → Prop} {options : List SchemaObject}
    {option : SchemaObject} (mem : option ∈ options) (h : fits option v) :
    AnyFits fits options v := by
  induction options with
  | nil => cases mem
  | cons other options ih =>
    rcases List.mem_cons.mp mem with rfl | mem
    · exact .here h
    · exact .there (ih mem)

lemma fits_options {options : List SchemaObject} {discriminator : Option String}
    (fits : AnyFits (Fits components) options v) :
    Fits components { oneOf := some options, discriminator := discriminator } v := by
  refine .direct rfl { any_meets with } ?_ (fun others eq => ?_) nofun
  · cases v <;> exact nofun
  · obtain rfl := Option.some.inj eq
    exact fits

lemma fits_union {options : List SchemaObject} {option : SchemaObject} (mem : option ∈ options)
    (h : Fits components option v) (discriminator : Option String) :
    Fits components { oneOf := some options, discriminator := discriminator } v :=
  fits_options (anyFits_of_mem mem h)

lemma names_withNull (t : TypeNames) : t.names ⊆ t.withNull.names ∧ "null" ∈ t.withNull.names := by
  rw [TypeNames.withNull]
  split
  · rename_i present
    exact ⟨List.Subset.refl _, by simpa using present⟩
  · exact ⟨List.subset_append_left _ _, by simp [TypeNames.names]⟩

/-- More types, and other notes, change nothing for values that fit. -/
lemma Fits.widen (fits : Fits components s v) {typeNames : Option TypeNames}
    (wider : ∀ t, typeNames = some t → ∃ t', s.typeNames = some t' ∧ t'.names ⊆ t.names)
    (description : Option String) (default : Option Json) (examples : Option (List Json)) :
    Fits components { s with
      typeNames := typeNames, description := description, default := default,
      examples := examples } v := by
  cases fits with
  | reference refers found fits => exact .reference refers found fits
  | direct plain meets parts oneOf allOf =>
    refine .direct plain { meets with type := fun t eq => ?_ } ?_ oneOf allOf
    · obtain ⟨t', old, subset⟩ := wider t eq
      obtain ⟨name, mem, has⟩ := meets.type t' old
      exact ⟨name, subset mem, has⟩
    · cases v <;> exact parts

lemma Fits.withDefault (fits : Fits components s v) (value : Json) :
    Fits components { s with default := some value } v :=
  fits.widen (fun t eq => ⟨t, eq, List.Subset.refl _⟩) s.description (some value) s.examples

/-- The notes of a node, with or without null among the types. -/
lemma Fits.overlay (fits : Fits components s v) (nullable : Bool) (description : Option String)
    (examples : Option (List Json)) :
    Fits components (s.overlay {
      description := description
      typeNames := if nullable then s.typeNames.map TypeNames.withNull else none
      examples := examples }) v := by
  refine fits.widen (fun t eq => ?_) (description <|> s.description) s.default
    (examples <|> s.examples)
  cases nullable with
  | false => exact ⟨t, eq, List.Subset.refl _⟩
  | true =>
    cases old : s.typeNames with
    | none =>
      rw [old] at eq
      cases eq
    | some t' =>
      rw [old] at eq
      obtain rfl := Option.some.inj eq
      exact ⟨t', rfl, (names_withNull t').1⟩

/-- What fits a schema fits it when null is allowed as well. -/
lemma Fits.orNull (fits : Fits components s v) : Fits components s.orNull v := by
  rw [SchemaObject.orNull]
  split
  · exact fits
  · split
    · rename_i t eq
      refine fits.widen (fun t' same => ?_) s.description s.default s.examples
      obtain rfl := Option.some.inj same
      exact ⟨t, eq, (names_withNull t).1⟩
    · exact fits_options (.here fits)

/-- Whether null can be allowed by a schema as well: it stands for itself, what it lists has null
in it, and it does not ask for alternatives beside its types. -/
structure Open (s : SchemaObject) : Prop where
  plain : s.reference = none
  choice : ∀ values, s.choices = some values → .null ∈ values
  oneOf : s.typeNames.isSome → s.oneOf = none
  allOf : s.allOf = none

lemma open_of_choices_none (choices : s.choices = none) (plain : s.reference = none)
    (oneOf : s.typeNames.isSome → s.oneOf = none) (allOf : s.allOf = none) : s.Open where
  plain := plain
  choice := fun values eq => by
    rw [choices] at eq
    cases eq
  oneOf := oneOf
  allOf := allOf

lemma Open.fits_null (free : s.Open) : Fits components s.orNull .null := by
  rw [SchemaObject.orNull]
  rw [if_neg (by simp [isReference, free.plain])]
  split
  · rename_i t eq
    refine Meets.fits (s := { s with typeNames := some t.withNull }) ?_ free.plain
      (free.oneOf (by simp [eq])) free.allOf rfl
    refine { type := fun t' same => ?_, choice := fun values listed => ?_ }
    · obtain rfl := Option.some.inj same
      exact ⟨"null", (names_withNull t).2, rfl⟩
    · exact ⟨.null, free.choice values listed, rfl⟩
  · exact fits_options (.there (.here (ofType_fits rfl)))

/-- Whether a schema lists values and null is not one of them. -/
structure Lists (s : SchemaObject) : Prop where
  plain : s.reference = none
  typed : s.typeNames.isSome
  listed : ∃ values, s.choices = some values ∧ .null ∉ values

lemma Lists.misfit (lists : s.Lists) : ¬ Fits components s .null := by
  intro fits
  obtain ⟨values, listed, outside⟩ := lists.listed
  cases fits with
  | reference refers _ _ =>
    rw [lists.plain] at refers
    cases refers
  | direct _ meets _ _ _ =>
    obtain ⟨value, mem, same⟩ := meets.choice values listed
    cases value with
    | null => exact outside mem
    | _ => cases same

/-- That null is among the types as well does not help when values are listed. -/
lemma Lists.orNull (lists : s.Lists) : s.orNull.Lists := by
  obtain ⟨t, typed⟩ := Option.isSome_iff_exists.mp lists.typed
  have kept : s.orNull = { s with typeNames := some t.withNull } := by
    simp [SchemaObject.orNull, isReference, lists.plain, typed]
  rw [kept]
  exact ⟨lists.plain, rfl, lists.listed⟩

end SchemaObject

end EventContracts
