import EventContracts.Proofs.RereadSchemas

/-! What is left of two objects that have no property in common when they are flattened into one.
Their properties go through values and are read back one after the other, so that each keeps its
place and its schema; required names follow each other too, and of repeated names on the right the
first is kept. -/

namespace EventContracts

namespace SchemaObject

variable {s : SchemaObject}

/-- Whether the default of a schema is something else than null. -/
def WithoutNull (s : SchemaObject) : Prop := s.default ≠ some .null

lemma given_of_ne {v : Option Json} (other : v ≠ some .null) : given v = v := by
  rcases v with _ | v
  · rfl
  · cases v with
    | null => exact absurd rfl other
    | _ => rfl

lemma rereadList_self {schemas : List SchemaObject} (each : ∀ t ∈ schemas, t.reread = t) :
    rereadList schemas = schemas := by
  rw [rereadList_eq_map, List.map_congr_left each, List.map_id']

lemma rereadFurther?_self {further : Option (Further SchemaObject)}
    (each : ∀ t ∈ (further.map Further.parts).getD [], t.reread = t) :
    rereadFurther? further = further := by
  rcases further with _ | _ | t
  · rfl
  · rfl
  · rw [rereadFurther?, each t (List.mem_singleton_self t)]

lemma rereadItems?_self {items : Option (Items SchemaObject)}
    (each : ∀ t ∈ (items.map Items.parts).getD [], t.reread = t) :
    rereadItems? items = items := by
  rcases items with _ | schemas | t
  · rfl
  · exact congrArg (some ∘ Items.positional) (rereadList_self each)
  · rw [rereadItems?, each t (List.mem_singleton_self t)]

lemma rereadSchemas?_self {schemas : Option (List SchemaObject)}
    (each : ∀ t ∈ schemas.getD [], t.reread = t) : rereadSchemas? schemas = schemas := by
  cases schemas with
  | none => rfl
  | some schemas => exact congrArg some (rereadList_self each)

lemma rereadProperties?_self {properties : Option (List (String × SchemaObject))}
    (each : ∀ t ∈ (properties.getD []).map Prod.snd, t.reread = t) :
    rereadProperties? properties = properties := by
  cases properties with
  | none => rfl
  | some properties =>
    rw [rereadProperties?, rereadProperties_eq_mapValues, Fields.mapValues]
    refine congrArg some ?_
    conv_rhs => rw [← List.map_id properties]
    refine List.map_congr_left fun property mem => ?_
    rw [each _ (List.mem_map_of_mem mem)]
    rfl

/-- A schema is read back as it is when no default in it is null. -/
lemma reread_eq_self (keyed : s.Throughout Keyed) (free : s.Throughout WithoutNull) :
    s.reread = s := by
  induction keyed with
  | @mk s here _ ih =>
    have self (t : SchemaObject) (mem : t ∈ s.parts) : t.reread = t :=
      ih t mem (free.parts t mem)
    have bound {b : Option Json} (mem : b ∈ s.bounds) : given b = b :=
      given_of_ne fun null => (here.bounds b mem _ null).2 rfl
    simp only [mem_parts] at self
    have same := given_of_ne free.here
    obtain ⟨reference, typeNames, format, description, properties, required, further, items,
      furtherItems, choices, oneOf, allOf, discriminator, default, examples, minimum, maximum,
      exclusiveMinimum, exclusiveMaximum, minLength, maxLength, minItems, maxItems, pattern⟩ := s
    rw [reread, withoutNulls]
    dsimp only at *
    rw [rereadProperties?_self fun t mem => self t (.inl mem),
      rereadFurther?_self fun t mem => self t (.inr (.inl mem)),
      rereadItems?_self fun t mem => self t (.inr (.inr (.inl mem))),
      rereadFurther?_self fun t mem => self t (.inr (.inr (.inr (.inl mem)))),
      rereadSchemas?_self fun t mem => self t (.inr (.inr (.inr (.inr (.inl mem))))),
      rereadSchemas?_self fun t mem => self t (.inr (.inr (.inr (.inr (.inr mem))))),
      same, bound (b := minimum) (by simp [bounds]), bound (b := maximum) (by simp [bounds]),
      bound (b := exclusiveMinimum) (by simp [bounds]),
      bound (b := exclusiveMaximum) (by simp [bounds])]

lemma fieldsOfProperties_append (left right : List (String × SchemaObject)) :
    fieldsOfProperties (left ++ right) = fieldsOfProperties left ++ fieldsOfProperties right := by
  induction left with
  | nil => rfl
  | cons property rest ih =>
    obtain ⟨name, s⟩ := property
    exact congrArg (_ :: ·) ih

/-- Properties of different names are read back in their order. -/
lemma mergeProperties?_of_disjoint {left right : List (String × SchemaObject)}
    (keyed : ∀ t ∈ (left ++ right).map Prod.snd, t.Throughout Keyed)
    (nodup : (Fields.names (left ++ right)).Nodup) :
    mergeProperties? left right = some (Fields.mapValues reread (left ++ right)) := by
  have apart : (Fields.names (fieldsOfProperties left ++ fieldsOfProperties right)).Nodup := by
    rwa [← fieldsOfProperties_append, names_fieldsOfProperties]
  have names : (Fields.names (Fields.mapValues reread (left ++ right))).Nodup := by
    rwa [Fields.names, Fields.mapValues, List.map_map]
  rw [mergeProperties?, Json.mergeFields_of_disjoint apart, ← fieldsOfProperties_append]
  change (pairsOf? _).bind _ = _
  rw [pairsOf?_fieldsOfProperties fun t mem => readsBack (keyed t mem),
    rereadProperties_eq_mapValues]
  exact congrArg some (Fields.ofPairs_of_nodup names)

/-- The names of the first list, and then the new ones of the second, each of them once. -/
lemma unionNames_eq (left right : List String) :
    unionNames left right = left ++ (right.removeAll left).eraseDups := by
  induction right generalizing left with
  | nil => simp [unionNames, List.removeAll]
  | cons name rest ih =>
    change unionNames (if left.contains name then left else left ++ [name]) rest = _
    rw [ih]
    by_cases known : name ∈ left
    · simp [List.removeAll, known]
    · have fresh : (name :: rest).removeAll left = name :: rest.removeAll left := by
        simp [List.removeAll, known]
      have others : rest.removeAll (left ++ [name]) =
          (rest.removeAll left).filter fun b => !b == name := by
        simp only [List.removeAll, List.filter_filter]
        refine List.filter_congr fun other _ => ?_
        by_cases same : other = name <;> simp [same]
      rw [if_neg (by simpa using known), fresh, List.eraseDups_cons, others, List.append_assoc]
      rfl

lemma mem_unionNames_iff {left right : List String} {name : String} :
    name ∈ unionNames left right ↔ name ∈ left ∨ name ∈ right := by
  rw [unionNames_eq, List.mem_append, List.mem_eraseDups]
  by_cases known : name ∈ left <;> simp [List.removeAll, known]

lemma getD_unionNames (left right : Option (List String)) :
    (if left.isSome || right.isSome then some (unionNames (left.getD []) (right.getD []))
      else none).getD [] = unionNames (left.getD []) (right.getD []) := by
  cases left <;> cases right <;> rfl

/-- Two plain objects whose properties differ in names are flattened into one. -/
lemma flatten?_of_disjoint {left right : SchemaObject} (fromLeft : left.Throughout Keyed)
    (fromRight : right.Throughout Keyed) (plainLeft : left.isMergeable)
    (plainRight : right.isMergeable) (apart : left.propertyNames.Disjoint right.propertyNames) :
    ∃ flat, flatten? left right = some flat ∧
      flat.properties.getD [] =
        Fields.mapValues reread (left.properties.getD [] ++ right.properties.getD []) ∧
      flat.required.getD [] = unionNames (left.required.getD []) (right.required.getD []) := by
  have keyed : ∀ t ∈ (left.properties.getD [] ++ right.properties.getD []).map Prod.snd,
      t.Throughout Keyed := by
    intro t mem
    rw [List.map_append] at mem
    rcases List.mem_append.mp mem with mem | mem
    · exact fromLeft.parts t (mem_parts.mpr (.inl mem))
    · exact fromRight.parts t (mem_parts.mpr (.inl mem))
  have nodup : (Fields.names (left.properties.getD [] ++ right.properties.getD [])).Nodup := by
    rw [Fields.names, List.map_append]
    exact fromLeft.here.properties.append fromRight.here.properties apart
  have merged := mergeProperties?_of_disjoint keyed nodup
  have required := getD_unionNames left.required right.required
  rw [flatten?, if_pos (by rw [plainLeft, plainRight]; rfl)]
  by_cases given : left.properties.isSome || right.properties.isSome
  · dsimp only
    rw [if_pos given, merged]
    exact ⟨_, rfl, rfl, required⟩
  · dsimp only
    rw [if_neg given]
    refine ⟨_, rfl, ?_, required⟩
    obtain ⟨noLeft, noRight⟩ : left.properties = none ∧ right.properties = none := by
      simpa using given
    rw [noLeft, noRight]
    rfl

end SchemaObject

namespace Document

open SchemaObject

/-- Whether a schema is the view of a keyed node among keyed definitions, with any aliases. -/
def Depicted (s : SchemaObject) : Prop :=
  ∃ (setting : Setting) (direction : Direction) (node : Node)
      (table later : AliasTable SchemaObject),
    (∀ field ∈ setting.library.definitions, field.2.Keyed) ∧ node.Keyed ∧
      depict setting direction node table = (.ok s, later)

variable {s : SchemaObject}

lemma Depicted.keyed (depicted : Depicted s) : s.Throughout SchemaObject.Keyed := by
  obtain ⟨setting, direction, node, table, later, definitions, keyed, shown⟩ := depicted
  exact keyed_of_replay definitions keyed (Depicter.replay_of_depict uniform.unknown shown)

lemma Depicted.required (depicted : Depicted s) : s.required.getD [] ⊆ s.propertyNames := by
  obtain ⟨setting, direction, node, table, later, -, -, shown⟩ := depicted
  have drawn : Drawn false direction node s :=
    drawn_of_replay Bool.noConfusion (Depicter.replay_of_depict uniform.unknown shown)
  exact drawn.formed.here.required

end Document

open SchemaObject in
/-- Flattening two plain objects that have no property in common loses nothing: the properties of
the first one are followed by those of the second, each with the schema that it had where null is
the default of nothing in it, and so are the required names, of which the second object gives each
once. -/
theorem flattened_objects_keep_their_fields {left right : SchemaObject}
    (fromLeft : Document.Depicted left) (fromRight : Document.Depicted right)
    (plainLeft : left.isMergeable) (plainRight : right.isMergeable)
    (apart : left.propertyNames.Disjoint right.propertyNames) :
    ∃ flat, flatten? left right = some flat ∧
      List.Forall₂ (fun property kept => kept.1 = property.1 ∧
          (property.2.Throughout WithoutNull → kept.2 = property.2))
        (left.properties.getD [] ++ right.properties.getD []) (flat.properties.getD []) ∧
      flat.required.getD [] = left.required.getD [] ++ (right.required.getD []).eraseDups := by
  obtain ⟨flat, made, properties, required⟩ :=
    flatten?_of_disjoint fromLeft.keyed fromRight.keyed plainLeft plainRight apart
  refine ⟨flat, made, ?_, ?_⟩
  · rw [properties, Fields.mapValues, List.forall₂_map_right_iff]
    refine List.forall₂_same.mpr fun property mem => ⟨rfl, fun free => ?_⟩
    refine reread_eq_self ?_ free
    rcases List.mem_append.mp mem with mem | mem
    · exact fromLeft.keyed.parts _ (mem_parts.mpr (.inl (List.mem_map_of_mem mem)))
    · exact fromRight.keyed.parts _ (mem_parts.mpr (.inl (List.mem_map_of_mem mem)))
  · have fresh : (right.required.getD []).removeAll (left.required.getD []) =
        right.required.getD [] := by
      refine List.filter_eq_self.mpr fun name mem => ?_
      have new : name ∉ left.required.getD [] := fun inside =>
        apart (fromLeft.required inside) (fromRight.required mem)
      simpa using new
    rw [required, unionNames_eq, fresh]

def parcelSetting : Setting where
  library := {}
  fingerprint node := node.kindName

/-- A parcel: the code that it has when none is given, and what is in it. -/
def parcel : Node := .of (.object [
  ("code", .of (.default (.of (.string {})) (.string "A"))),
  ("content", .of (.array (.of (.string {})) (some 1) none))])

/-- What is paid for a parcel. -/
def costs : Node := .of (.record (.of (.choice ["postage", "insurance"])) (.of (.number {})))

lemma keyed_text : (Node.of (.string {})).Keyed := by
  simp [Node.of, Node.keyed_mk, Kind.Keyed, Kind.children]

lemma keyed_parcel : parcel.Keyed := by
  simp [parcel, Node.of, Node.keyed_mk, Kind.Keyed, Kind.children, Fields.names, Json.Keyed.string]

lemma keyed_costs (words : List String) :
    (Node.of (.record (.of (.choice words)) (.of (.number {})))).Keyed := by
  simp [Node.of, Node.keyed_mk, Kind.Keyed, Kind.children]

/-- The view of a parcel. -/
def parcelSchema : SchemaObject where
  typeNames := some (.one "object")
  properties := some [
    ("code", { typeNames := some (.one "string"), default := some (.string "A") }),
    ("content", {
      typeNames := some (.one "array")
      items := some (.each { typeNames := some (.one "string") })
      minItems := some 1 })]
  required := some ["content"]

/-- The view of what is paid. -/
def costsSchema : SchemaObject where
  typeNames := some (.one "object")
  properties := some [
    ("postage", { typeNames := some (.one "number"), format := some "double" }),
    ("insurance", { typeNames := some (.one "number"), format := some "double" })]
  required := some ["postage", "insurance"]

lemma withoutNull_parcel : ∀ property ∈ parcelSchema.properties.getD [],
    property.2.Throughout SchemaObject.WithoutNull := by
  intro property mem
  rcases List.mem_cons.mp mem with rfl | mem
  · exact .leaf (by simp [SchemaObject.WithoutNull]) rfl
  · obtain rfl := List.mem_singleton.mp mem
    refine .mk (by simp [SchemaObject.WithoutNull]) fun part mem => ?_
    obtain rfl : part = { typeNames := some (.one "string") } := List.mem_singleton.mp mem
    exact .leaf (by simp [SchemaObject.WithoutNull]) rfl

lemma withoutNull_costs : ∀ property ∈ costsSchema.properties.getD [],
    property.2.Throughout SchemaObject.WithoutNull := by
  intro property mem
  rcases List.mem_cons.mp mem with rfl | mem
  · exact .leaf (by simp [SchemaObject.WithoutNull]) rfl
  · obtain rfl := List.mem_singleton.mp mem
    exact .leaf (by simp [SchemaObject.WithoutNull]) rfl

theorem parcels_keep_their_fields :
    Document.Depicted parcelSchema ∧ Document.Depicted costsSchema ∧
    parcelSchema.isMergeable ∧ costsSchema.isMergeable ∧
    parcelSchema.propertyNames.Disjoint costsSchema.propertyNames ∧
    ∃ flat, parcelSchema.flatten? costsSchema = some flat ∧
      flat.properties.getD [] =
        parcelSchema.properties.getD [] ++ costsSchema.properties.getD [] ∧
      flat.required.getD [] = ["content", "postage", "insurance"] := by
  have fromLeft : Document.Depicted parcelSchema :=
    ⟨parcelSetting, .input, parcel, Document.noComponents, _, List.forall_mem_nil _, keyed_parcel,
      rfl⟩
  have fromRight : Document.Depicted costsSchema :=
    ⟨parcelSetting, .input, costs, Document.noComponents, _, List.forall_mem_nil _, keyed_costs _,
      rfl⟩
  have apart : ["code", "content"].Disjoint ["postage", "insurance"] := by simp
  obtain ⟨flat, made, kept, required⟩ :=
    flattened_objects_keep_their_fields fromLeft fromRight rfl rfl apart
  refine ⟨fromLeft, fromRight, rfl, rfl, apart, flat, made, ?_, required⟩
  have free : ∀ property ∈ parcelSchema.properties.getD [] ++ costsSchema.properties.getD [],
      property.2.Throughout SchemaObject.WithoutNull := fun property mem =>
    (List.mem_append.mp mem).elim (withoutNull_parcel property) (withoutNull_costs property)
  have same := ((List.forall₂_and_left _ _).mpr ⟨free, kept⟩).imp fun _ _ both =>
    (Prod.ext both.2.1 (both.2.2 both.1)).symm
  rw [List.forall₂_eq_eq_eq] at same
  exact same.symm

lemma keyed_single (name : String) {node : Node} (keyed : node.Keyed) :
    (Node.of (.object [(name, node)])).Keyed := by
  simpa [Node.of, Node.keyed_mk, Kind.Keyed, Kind.children, Fields.names] using keyed

/-- A name that the second object requires twice is given once, and a default that is null is
lost. -/
theorem flattened_objects_lose_repetitions_and_nulls :
    (∃ left right flat, Document.Depicted left ∧ Document.Depicted right ∧ left.isMergeable ∧
      right.isMergeable ∧ left.propertyNames.Disjoint right.propertyNames ∧
      SchemaObject.flatten? left right = some flat ∧
      flat.required.getD [] ≠ left.required.getD [] ++ right.required.getD []) ∧
    ∃ left right flat, Document.Depicted left ∧ Document.Depicted right ∧ left.isMergeable ∧
      right.isMergeable ∧ left.propertyNames.Disjoint right.propertyNames ∧
      SchemaObject.flatten? left right = some flat ∧
      flat.properties.getD [] ≠ left.properties.getD [] ++ right.properties.getD [] := by
  have depicted {node : Node} {s : SchemaObject} (keyed : node.Keyed)
      (shown : Document.depict parcelSetting .input node Document.noComponents =
        (.ok s, Document.noComponents)) : Document.Depicted s :=
    ⟨parcelSetting, .input, node, _, _, List.forall_mem_nil _, keyed, shown⟩
  constructor
  · have apart : ["b"].Disjoint ["a"] := by simp
    refine ⟨_, _, _, depicted (keyed_single "b" keyed_text) rfl,
      depicted (keyed_costs ["a", "a"]) rfl, rfl, rfl, apart, rfl, ?_⟩
    change ["b", "a"] ≠ ["b", "a", "a"]
    simp
  · have null : (Node.of (.default (.of (.nullable (.of (.string {})))) .null)).Keyed := by
      simp [Node.of, Node.keyed_mk, Kind.Keyed, Kind.children, Json.Keyed.null]
    have apart : ["a"].Disjoint ["b"] := by simp
    refine ⟨_, _, _, depicted (keyed_single "a" null) rfl,
      depicted (keyed_single "b" keyed_text) rfl, rfl, rfl, apart, rfl, fun same => ?_⟩
    have default := congrArg (fun ps => (ps.head?.bind fun p => p.2.default).isSome) same
    exact Bool.false_ne_true default

end EventContracts
