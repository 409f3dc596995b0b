import EventContracts.Proofs.KeyedSchemas

/-! What is read back of a schema object that was written. Null leaves a field out when it is read,
so a default that is null is lost, at every depth; all other fields come back as they were. -/

namespace EventContracts

namespace SchemaObject

/-- A value that is not null. -/
def given (v : Option Json) : Option Json :=
  match v with
  | some .null => none
  | v => v

/-- A schema without the fields that null is given for. -/
def withoutNulls (s : SchemaObject) : SchemaObject :=
  { s with
    default := given s.default
    minimum := given s.minimum
    maximum := given s.maximum
    exclusiveMinimum := given s.exclusiveMinimum
    exclusiveMaximum := given s.exclusiveMaximum }

mutual

/-- What is read back of a schema: it has no null at any depth. -/
def reread : SchemaObject → SchemaObject
  | { reference, typeNames, format, description, properties, required, additionalProperties, items,
      additionalItems, choices, oneOf, allOf, discriminator, default, examples, minimum, maximum,
      exclusiveMinimum, exclusiveMaximum, minLength, maxLength, minItems, maxItems, pattern } =>
    withoutNulls {
      reference, typeNames, format, description
      properties := rereadProperties? properties
      required
      additionalProperties := rereadFurther? additionalProperties
      items := rereadItems? items
      additionalItems := rereadFurther? additionalItems
      choices
      oneOf := rereadSchemas? oneOf
      allOf := rereadSchemas? allOf
      discriminator, default, examples, minimum, maximum, exclusiveMinimum, exclusiveMaximum
      minLength, maxLength, minItems, maxItems, pattern }
termination_by structural s => s

/-- What is read back of named schemas, if there are any. -/
def rereadProperties? :
    Option (List (String × SchemaObject)) → Option (List (String × SchemaObject))
  | some properties => some (rereadProperties properties)
  | none => none
termination_by structural properties => properties

/-- What is read back of what further parts may be. -/
def rereadFurther? : Option (Further SchemaObject) → Option (Further SchemaObject)
  | some (.allowed yes) => some (.allowed yes)
  | some (.schema s) => some (.schema (reread s))
  | none => none
termination_by structural further => further

/-- What is read back of the items of an array. -/
def rereadItems? : Option (Items SchemaObject) → Option (Items SchemaObject)
  | some (.positional schemas) => some (.positional (rereadList schemas))
  | some (.each s) => some (.each (reread s))
  | none => none
termination_by structural items => items

/-- What is read back of a list of schemas, if there is one. -/
def rereadSchemas? : Option (List SchemaObject) → Option (List SchemaObject)
  | some schemas => some (rereadList schemas)
  | none => none
termination_by structural schemas => schemas

/-- What is read back of the schemas of a list. -/
def rereadList : List SchemaObject → List SchemaObject
  | [] => []
  | s :: rest => reread s :: rereadList rest
termination_by structural schemas => schemas

/-- What is read back of named schemas. -/
def rereadProperties : List (String × SchemaObject) → List (String × SchemaObject)
  | [] => []
  | (name, s) :: rest => (name, reread s) :: rereadProperties rest
termination_by structural properties => properties

end

lemma rereadList_eq_map (schemas : List SchemaObject) :
    rereadList schemas = schemas.map reread := by
  induction schemas with
  | nil => rfl
  | cons s rest ih => rw [rereadList, ih]; rfl

lemma rereadProperties_eq_mapValues (properties : List (String × SchemaObject)) :
    rereadProperties properties = Fields.mapValues reread properties := by
  induction properties with
  | nil => rfl
  | cons field rest ih => rw [rereadProperties, ih]; rfl

/-- Whether a schema is read back without its nulls. -/
def ReadsBack (s : SchemaObject) : Prop := ofWritten? s.toJson.written = some s.reread

lemma listOf?_objectsOf {schemas : List SchemaObject} (each : ∀ s ∈ schemas, s.ReadsBack) :
    listOf? (Json.writtenItems (objectsOf schemas)) = some (rereadList schemas) := by
  induction schemas with
  | nil => rfl
  | cons s rest ih =>
    have first : ofWritten? (Json.object s.toFields).written = some s.reread :=
      each s List.mem_cons_self
    rw [objectsOf, Json.writtenItems, listOf?, first,
      ih fun t mem => each t (List.mem_cons_of_mem _ mem)]
    rfl

lemma pairsOf?_fieldsOfProperties {properties : List (String × SchemaObject)}
    (each : ∀ s ∈ properties.map Prod.snd, s.ReadsBack) :
    pairsOf? (Json.writtenFields (fieldsOfProperties properties)) =
      some (rereadProperties properties) := by
  induction properties with
  | nil => rfl
  | cons property rest ih =>
    obtain ⟨name, s⟩ := property
    have first : ofWritten? (Json.object s.toFields).written = some s.reread :=
      each s List.mem_cons_self
    rw [fieldsOfProperties, Json.writtenFields, pairsOf?, first,
      ih fun t mem => each t (List.mem_cons_of_mem _ mem)]
    rfl

/-- Give fields of a schema the values that they have. -/
def assignAll (fields : List (String × Option Json)) (s : SchemaObject) : Option SchemaObject :=
  fields.foldlM (fun s field =>
    match field.2 with
    | some v => assign field.1 v.written (partOf v) s
    | none => some s) s

/-- Fields with different known names are read one after the other. -/
lemma ofFields?_present {fields : List (String × Option Json)} {seen : List String}
    {s : SchemaObject} (nodup : (Fields.names fields).Nodup)
    (known : ∀ name ∈ Fields.names fields, name ∈ fieldNames)
    (fresh : ∀ name ∈ Fields.names fields, name ∉ seen) :
    ofFields? (Json.writtenFields (present fields)) seen s = assignAll fields s := by
  induction fields generalizing seen s with
  | nil => rfl
  | cons field rest ih =>
    obtain ⟨name, value⟩ := field
    obtain ⟨single, others⟩ := List.nodup_cons.mp nodup
    have isKnown := known name List.mem_cons_self
    have isFresh := fresh name List.mem_cons_self
    have known' := fun other mem => known other (List.mem_cons_of_mem _ mem)
    have fresh' := fun other mem => fresh other (List.mem_cons_of_mem _ mem)
    cases value with
    | none => exact ih others known' fresh'
    | some v =>
      change ofFields? (Json.writtenFields ((name, v) :: present rest)) seen s = _
      rw [Json.writtenFields, ofFields?, if_neg (by simpa using isFresh),
        if_pos (by simpa using isKnown)]
      change _ = (assign name v.written (partOf v) s).bind (assignAll rest)
      split
      · rename_i middle assigned
        rw [partOf, assigned]
        refine ih others known' fun other mem => ?_
        rw [List.mem_cons, not_or]
        exact ⟨fun same => single (same ▸ mem), fresh' other mem⟩
      · rename_i assigned
        rw [partOf, assigned]
        rfl

/-- Whether a field with a value, if it has one, changes a schema to another one. -/
def Assigns (name : String) (value : Option Json) (s middle : SchemaObject) : Prop :=
  assignAll [(name, value)] s = some middle

lemma assignAll_cons {name : String} {value : Option Json} {rest : List (String × Option Json)}
    {s middle : SchemaObject} (first : Assigns name value s middle) :
    assignAll ((name, value) :: rest) s = assignAll rest middle := by
  rw [Assigns, assignAll, List.foldlM_cons] at first
  obtain ⟨middle', step, same⟩ := Option.bind_eq_some_iff.mp first
  obtain rfl := Option.some.inj same
  rw [assignAll, List.foldlM_cons, step]
  rfl

namespace Assigns

variable {name : String} {s : SchemaObject} {α β : Type}

/-- A field that is filled with what is read of its value. -/
lemma field (write : α → Json) (read : Json.Written → Part → Option β) (change : α → β)
    {x : Option α} (fill : Option β → SchemaObject → SchemaObject) (start : fill none s = s)
    (assigned : ∀ a part, assign name (write a).written part s =
      (read (write a).written part).map fun b => fill (some b) s)
    (same : ∀ a, x = some a → read (write a).written (partOf (write a)) = some (change a)) :
    Assigns name (x.map write) s (fill (x.map change) s) := by
  cases x with
  | none =>
    rw [Option.map_none, Option.map_none, start]
    rfl
  | some a =>
    change (assign name (write a).written (partOf (write a)) s).bind some = _
    rw [assigned, same a rfl]
    rfl

lemma text {x : Option String} (fill : Option String → SchemaObject → SchemaObject)
    (start : fill none s = s)
    (assigned : ∀ a part, assign name (Json.string a).written part s = some (fill (some a) s)) :
    Assigns name (x.map .string) s (fill x s) := by
  have filled : Assigns name (x.map .string) s (fill (x.map id) s) :=
    field .string (fun w _ => w.asText?) id fill start assigned fun _ _ => rfl
  rwa [Option.map_id] at filled

lemma count {x : Option Nat} (fill : Option Nat → SchemaObject → SchemaObject)
    (start : fill none s = s)
    (assigned : ∀ (n : Nat) part, assign name (Json.whole n).written part s =
      (Json.whole n).written.asCount?.map fun n => fill (some n) s) :
    Assigns name (x.map fun n => .whole n) s (fill x s) := by
  cases x with
  | none =>
    change some s = some (fill none s)
    rw [start]
  | some n =>
    have natural : ¬ (n : Int) < 0 := by omega
    have read : (Json.whole n).written.asCount? = some n := by
      change (if (n : Int) < 0 then none else some (n : Int).toNat) = some n
      rw [if_neg natural]
      rfl
    change (assign name (Json.whole n).written (partOf _) s).bind some = _
    rw [assigned, read]
    rfl

lemma asTexts?_strings (names : List String) :
    (Json.strings names).written.asTexts? = some names := by
  rw [Json.strings, Json.written, Json.Written.asTexts?]
  induction names with
  | nil => rfl
  | cons name rest ih =>
    rw [List.map_cons, Json.writtenItems, List.mapM_cons, ih]
    rfl

lemma texts {x : Option (List String)} (fill : Option (List String) → SchemaObject → SchemaObject)
    (start : fill none s = s)
    (assigned : ∀ names part, assign name (Json.strings names).written part s =
      (Json.strings names).written.asTexts?.map fun names => fill (some names) s) :
    Assigns name (x.map Json.strings) s (fill x s) := by
  have filled : Assigns name (x.map Json.strings) s (fill (x.map id) s) :=
    field Json.strings (fun w _ => w.asTexts?) id fill start assigned
      fun names _ => asTexts?_strings names
  rwa [Option.map_id] at filled

lemma types {x : Option TypeNames} (fill : Option TypeNames → SchemaObject → SchemaObject)
    (start : fill none s = s)
    (assigned : ∀ t part, assign name (TypeNames.toJson t).written part s =
      (TypeNames.ofWritten? t.toJson.written).map fun t => fill (some t) s) :
    Assigns name (x.map TypeNames.toJson) s (fill x s) := by
  have filled : Assigns name (x.map TypeNames.toJson) s (fill (x.map id) s) := by
    refine field TypeNames.toJson (fun w _ => TypeNames.ofWritten? w) id fill start assigned ?_
    intro t _
    cases t with
    | one name => rfl
    | many names =>
      change ((Json.strings names).written.asTexts?).map TypeNames.many = _
      rw [asTexts?_strings]
      rfl
  rwa [Option.map_id] at filled

lemma values {x : Option (List Json)} (keyed : ∀ v ∈ x.getD [], v.Keyed)
    (fill : Option (List Json) → SchemaObject → SchemaObject) (start : fill none s = s)
    (assigned : ∀ vs part, assign name (Json.array vs).written part s =
      (Json.array vs).written.asValues?.map fun vs => fill (some vs) s) :
    Assigns name (x.map .array) s (fill x s) := by
  have filled : Assigns name (x.map .array) s (fill (x.map id) s) := by
    refine field .array (fun w _ => w.asValues?) id fill start assigned ?_
    rintro vs rfl
    exact Json.values?_of_each fun v mem => (keyed v mem).read
  rwa [Option.map_id] at filled

/-- A field with any value. Null leaves it out. -/
lemma value {x : Option Json} (keyed : ∀ v, x = some v → v.Keyed)
    (fill : Option Json → SchemaObject → SchemaObject) (start : fill none s = s)
    (assigned : ∀ (v : Json) part, v ≠ .null → assign name v.written part s =
      v.written.value?.map fun v => fill (some v) s) :
    Assigns name x s (fill (given x) s) := by
  have null (part : Part) : assign name Json.null.written part s = some s := by
    simp [assign, Json.written]
  cases x with
  | none =>
    change some s = some (fill none s)
    rw [start]
  | some v =>
    change (assign name v.written (partOf v) s).bind some = _
    by_cases isNull : v = .null
    · rw [isNull, null]
      change some s = some (fill none s)
      rw [start]
    · have same : given (some v) = some v := by
        cases v with
        | null => exact absurd rfl isNull
        | _ => rfl
      rw [assigned v _ isNull, (keyed v rfl).read, same]
      rfl

lemma properties {x : Option (List (String × SchemaObject))}
    (nodup : (Fields.names (x.getD [])).Nodup)
    (each : ∀ t ∈ (x.getD []).map Prod.snd, t.ReadsBack)
    (fill : Option (List (String × SchemaObject)) → SchemaObject → SchemaObject)
    (start : fill none s = s)
    (assigned : ∀ fields (part : Part), assign name (Json.object fields).written part s =
      (part.properties ()).map fun ps => fill (some ps) s) :
    Assigns name (ofProperties? x) s (fill (rereadProperties? x) s) := by
  cases x with
  | none =>
    change some s = some (fill none s)
    rw [start]
  | some ps =>
    have names : (Fields.names (rereadProperties ps)).Nodup := by
      rw [rereadProperties_eq_mapValues, Fields.names, Fields.mapValues, List.map_map]
      exact nodup
    have pairs : pairsOf? (Json.writtenFields (fieldsOfProperties ps)) =
        some (rereadProperties ps) := pairsOf?_fieldsOfProperties each
    have read : propertiesOf? (Json.object (fieldsOfProperties ps)).written =
        some (rereadProperties ps) := by
      rw [Json.written, propertiesOf?, pairs, Option.map_some,
        Fields.ofPairs_of_nodup names]
    change (assign name (Json.object (fieldsOfProperties ps)).written (partOf _) s).bind some = _
    rw [assigned]
    change ((propertiesOf? (Json.object (fieldsOfProperties ps)).written).map _).bind some = _
    rw [read]
    rfl

lemma further {x : Option (Further SchemaObject)}
    (each : ∀ t ∈ (x.map Further.parts).getD [], t.ReadsBack)
    (fill : Option (Further SchemaObject) → SchemaObject → SchemaObject) (start : fill none s = s)
    (assigned : ∀ v part, v ≠ Json.null → assign name v.written part s =
      (further? v.written part).map fun further => fill (some further) s) :
    Assigns name (ofFurther? x) s (fill (rereadFurther? x) s) := by
  rcases x with _ | yes | t
  · change some s = some (fill none s)
    rw [start]
  · change (assign name (Json.bool yes).written (partOf _) s).bind some = _
    rw [assigned _ _ (by simp)]
    rfl
  · have read : (partOf (.object t.toFields)).schema () = some t.reread :=
      each t (List.mem_singleton_self t)
    change (assign name (Json.object t.toFields).written (partOf _) s).bind some = _
    rw [assigned _ _ (by simp), further?_of_ne_bool (by simp), read]
    rfl

lemma items {x : Option (Items SchemaObject)}
    (each : ∀ t ∈ (x.map Items.parts).getD [], t.ReadsBack)
    (fill : Option (Items SchemaObject) → SchemaObject → SchemaObject) (start : fill none s = s)
    (assigned : ∀ v part, v ≠ Json.null → assign name v.written part s =
      (items? v.written part).map fun items => fill (some items) s) :
    Assigns name (ofItems? x) s (fill (rereadItems? x) s) := by
  rcases x with _ | schemas | t
  · change some s = some (fill none s)
    rw [start]
  · have read : (partOf (.array (objectsOf schemas))).schemas () = some (rereadList schemas) :=
      listOf?_objectsOf each
    change (assign name (Json.array (objectsOf schemas)).written (partOf _) s).bind some = _
    rw [assigned _ _ (by simp), items?, if_pos (Json.value?_written _), read]
    rfl
  · have read : (partOf (.object t.toFields)).schema () = some t.reread :=
      each t (List.mem_singleton_self t)
    have single : (partOf (.object t.toFields)).schemas () = none := rfl
    change (assign name (Json.object t.toFields).written (partOf _) s).bind some = _
    rw [assigned _ _ (by simp), items?, if_pos (Json.value?_written _), single, read]
    rfl

lemma schemas {x : Option (List SchemaObject)} (each : ∀ t ∈ x.getD [], t.ReadsBack)
    (fill : Option (List SchemaObject) → SchemaObject → SchemaObject) (start : fill none s = s)
    (assigned : ∀ items (part : Part), assign name (Json.array items).written part s =
      (part.schemas ()).map fun schemas => fill (some schemas) s) :
    Assigns name (ofSchemas? x) s (fill (rereadSchemas? x) s) := by
  cases x with
  | none =>
    change some s = some (fill none s)
    rw [start]
  | some schemas =>
    have read : (partOf (.array (objectsOf schemas))).schemas () = some (rereadList schemas) :=
      listOf?_objectsOf each
    change (assign name (Json.array (objectsOf schemas)).written (partOf _) s).bind some = _
    rw [assigned, read]
    rfl

end Assigns

/-- A schema that is written is read back without its nulls. The induction is on the schema, and
goes through its fields in the order in which they are written. -/
lemma readsBack {s : SchemaObject} (keyed : s.Throughout Keyed) : s.ReadsBack := by
  induction keyed with
  | @mk s here _ ih =>
    simp only [mem_parts] at ih
    have bound {b : Option Json} (mem : b ∈ s.bounds) (v : Json) (is : b = some v) : v.Keyed :=
      (here.bounds b mem v is).1
    obtain ⟨reference, typeNames, format, description, properties, required, further, items,
      furtherItems, choices, oneOf, allOf, discriminator, default, examples, minimum, maximum,
      exclusiveMinimum, exclusiveMaximum, minLength, maxLength, minItems, maxItems, pattern⟩ := s
    rw [ReadsBack, toJson, Json.written, ofWritten?, toFields, ofFields?_present
      (by simp [Fields.names]) (by simp [Fields.names, fieldNames]) fun _ _ => List.not_mem_nil]
    rw [assignAll_cons (.text (fun x s => { s with reference := x }) rfl fun _ _ => rfl)]
    dsimp only
    rw [assignAll_cons (.types (fun x s => { s with typeNames := x }) rfl
      fun t _ => by cases t <;> rfl)]
    dsimp only
    rw [assignAll_cons (.text (fun x s => { s with format := x }) rfl fun _ _ => rfl)]
    dsimp only
    rw [assignAll_cons (.text (fun x s => { s with description := x }) rfl fun _ _ => rfl)]
    dsimp only
    rw [assignAll_cons (.properties here.properties (fun t mem => ih t (.inl mem))
      (fun x s => { s with properties := x }) rfl fun _ _ => rfl)]
    dsimp only
    rw [assignAll_cons (.texts (fun x s => { s with required := x }) rfl fun _ _ => rfl)]
    dsimp only
    rw [assignAll_cons (.further (fun t mem => ih t (.inr (.inl mem)))
      (fun x s => { s with additionalProperties := x }) rfl
      fun v _ other => by cases v <;> first | rfl | exact absurd rfl other)]
    dsimp only
    rw [assignAll_cons (.items (fun t mem => ih t (.inr (.inr (.inl mem))))
      (fun x s => { s with items := x }) rfl
      fun v _ other => by cases v <;> first | rfl | exact absurd rfl other)]
    dsimp only
    rw [assignAll_cons (.further (fun t mem => ih t (.inr (.inr (.inr (.inl mem)))))
      (fun x s => { s with additionalItems := x }) rfl
      fun v _ other => by cases v <;> first | rfl | exact absurd rfl other)]
    dsimp only
    rw [assignAll_cons (.values here.choices (fun x s => { s with choices := x }) rfl
      fun _ _ => rfl)]
    dsimp only
    rw [assignAll_cons (.schemas (fun t mem => ih t (.inr (.inr (.inr (.inr (.inl mem))))))
      (fun x s => { s with oneOf := x }) rfl fun _ _ => rfl)]
    dsimp only
    rw [assignAll_cons (.schemas (fun t mem => ih t (.inr (.inr (.inr (.inr (.inr mem))))))
      (fun x s => { s with allOf := x }) rfl fun _ _ => rfl)]
    dsimp only
    rw [assignAll_cons (.text (fun x s => { s with discriminator := x }) rfl fun _ _ => rfl)]
    dsimp only
    rw [assignAll_cons (.value here.default (fun x s => { s with default := x }) rfl
      fun v _ other => by cases v <;> first | rfl | exact absurd rfl other)]
    dsimp only
    rw [assignAll_cons (.values here.examples (fun x s => { s with examples := x }) rfl
      fun _ _ => rfl)]
    dsimp only
    rw [assignAll_cons (.value (bound (by simp [bounds])) (fun x s => { s with minimum := x }) rfl
      fun v _ other => by cases v <;> first | rfl | exact absurd rfl other)]
    dsimp only
    rw [assignAll_cons (.value (bound (by simp [bounds])) (fun x s => { s with maximum := x }) rfl
      fun v _ other => by cases v <;> first | rfl | exact absurd rfl other)]
    dsimp only
    rw [assignAll_cons (.value (bound (by simp [bounds]))
      (fun x s => { s with exclusiveMinimum := x }) rfl
      fun v _ other => by cases v <;> first | rfl | exact absurd rfl other)]
    dsimp only
    rw [assignAll_cons (.value (bound (by simp [bounds]))
      (fun x s => { s with exclusiveMaximum := x }) rfl
      fun v _ other => by cases v <;> first | rfl | exact absurd rfl other)]
    dsimp only
    rw [assignAll_cons (.count (fun x s => { s with minLength := x }) rfl fun _ _ => rfl)]
    dsimp only
    rw [assignAll_cons (.count (fun x s => { s with maxLength := x }) rfl fun _ _ => rfl)]
    dsimp only
    rw [assignAll_cons (.count (fun x s => { s with minItems := x }) rfl fun _ _ => rfl)]
    dsimp only
    rw [assignAll_cons (.count (fun x s => { s with maxItems := x }) rfl fun _ _ => rfl)]
    dsimp only
    rw [assignAll_cons (.text (fun x s => { s with pattern := x }) rfl fun _ _ => rfl)]
    dsimp only
    rfl

end SchemaObject

end EventContracts
