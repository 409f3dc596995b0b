import EventContracts.Proofs.SchemaRenaming

/-! JSON values of schema objects whose references have other names. Which texts are references
depends on the place of a value: the text under `$ref` is one, the values of examples and defaults
are not looked into. Merging keeps values renamed, and reading gives the renamed schema. -/

namespace EventContracts

/-- What stands in a place of the value of a schema object. -/
inductive Slot where
  | data
  | target
  | properties
  | nested

/-- What stands under a name in the value of a schema object. -/
def Slot.ofField (name : String) : Slot :=
  match name with
  | "$ref" => target
  | "properties" => properties
  | "additionalProperties" => nested
  | "items" => nested
  | "additionalItems" => nested
  | "oneOf" => nested
  | "allOf" => nested
  | _ => data

mutual

/-- Values that differ in the names of references, in a place of the value of a schema object. -/
inductive RenamedAt (f : String → String) : Slot → Json → Json → Prop where
  | data (v : Json) : RenamedAt f .data v v
  | target (s : String) : RenamedAt f .target (.string s) (.string (f s))
  | properties {fields fields' : Fields Json}
      (h : RenamedFields f (fun _ => .nested) fields fields') :
      RenamedAt f .properties (.object fields) (.object fields')
  | bool (b : Bool) : RenamedAt f .nested (.bool b) (.bool b)
  | schema {fields fields' : Fields Json} (h : RenamedFields f Slot.ofField fields fields') :
      RenamedAt f .nested (.object fields) (.object fields')
  | list {items items' : List Json} (h : RenamedItems f items items') :
      RenamedAt f .nested (.array items) (.array items')

/-- Fields that differ in the names of references. -/
inductive RenamedFields (f : String → String) :
    (String → Slot) → Fields Json → Fields Json → Prop where
  | nil {slots : String → Slot} : RenamedFields f slots [] []
  | cons {slots : String → Slot} {name : String} {v v' : Json} {rest rest' : Fields Json}
      (head : RenamedAt f (slots name) v v') (tail : RenamedFields f slots rest rest') :
      RenamedFields f slots ((name, v) :: rest) ((name, v') :: rest')

/-- Lists of values of schema objects that differ in the names of references. -/
inductive RenamedItems (f : String → String) : List Json → List Json → Prop where
  | nil : RenamedItems f [] []
  | cons {v v' : Json} {rest rest' : List Json} (head : RenamedAt f .nested v v')
      (tail : RenamedItems f rest rest') : RenamedItems f (v :: rest) (v' :: rest')

end

variable {f : String → String} {slots : String → Slot} {fields fields' : Fields Json}
  {items items' others others' : List Json} {v v' : Json}

lemma RenamedItems.append (h : RenamedItems f items items') (h' : RenamedItems f others others') :
    RenamedItems f (items ++ others) (items' ++ others') := by
  induction items generalizing items' with
  | nil => cases h; exact h'
  | cons item rest ih => cases h with | cons head tail => exact .cons head (ih tail)

lemma RenamedFields.names_eq (h : RenamedFields f slots fields fields') :
    Fields.names fields' = Fields.names fields := by
  induction fields generalizing fields' with
  | nil => cases h; rfl
  | cons field rest ih => cases h with | cons head tail => exact congrArg (_ :: ·) (ih tail)

lemma RenamedFields.get? (h : RenamedFields f slots fields fields') (name : String) :
    Option.Rel (RenamedAt f (slots name)) (Fields.get? name fields) (Fields.get? name fields') := by
  induction fields generalizing fields' with
  | nil => cases h; exact .none
  | cons field rest ih =>
    obtain ⟨key, v⟩ := field
    cases h with
    | cons head tail =>
      by_cases e : key = name
      · subst e
        simpa [Fields.get?] using Option.Rel.some head
      · simpa [Fields.get?, e] using ih tail

lemma RenamedFields.set {name : String} (h : RenamedFields f slots fields fields')
    (value : RenamedAt f (slots name) v v') :
    RenamedFields f slots (Fields.set name v fields) (Fields.set name v' fields') := by
  induction fields generalizing fields' with
  | nil => cases h; exact .cons value .nil
  | cons field rest ih =>
    obtain ⟨key, old⟩ := field
    cases h with
    | cons head tail =>
      by_cases e : key = name
      · subst e
        simpa [Fields.set] using RenamedFields.cons value tail
      · simpa [Fields.set, e] using RenamedFields.cons head (ih tail)

namespace Json

lemma relMap {α β γ δ : Type} {r : α → β → Prop} {r' : γ → δ → Prop} {g : α → γ} {g' : β → δ}
    {a : Option α} {b : Option β} (h : Option.Rel r a b) (step : ∀ x y, r x y → r' (g x) (g' y)) :
    Option.Rel r' (a.map g) (b.map g') := by
  cases h with
  | some h => exact .some (step _ _ h)
  | none => exact .none

lemma relData (a : Option Json) : Option.Rel (RenamedAt f .data) a a := by
  cases a with
  | none => exact .none
  | some v => exact .some (.data v)

mutual

/-- Merging values that differ in the names of references gives such values. -/
lemma mergeDeep_renamed (inj : Function.Injective f) :
    ∀ (right : Json) {right' left left' : Json} {slot : Slot}, RenamedAt f slot right right' →
      RenamedAt f slot left left' →
      Option.Rel (RenamedAt f slot) (mergeDeep left right) (mergeDeep left' right')
  | .object fields, _, _, _, _, hr, hl => by
    cases hr with
    | data => cases hl; exact relData _
    | properties h =>
      cases hl with
      | properties h' => exact relMap (mergeFields_renamed inj fields h h') fun _ _ => .properties
    | schema h =>
      cases hl with
      | bool b => exact .none
      | list h' => exact .none
      | schema h' => exact relMap (mergeFields_renamed inj fields h h') fun _ _ => .schema
  | .array items, _, _, _, _, hr, hl => by
    cases hr with
    | data => cases hl; exact relData _
    | list h =>
      cases hl with
      | bool b => exact .none
      | list h' => exact .some (.list (h'.append h))
      | schema h' => exact .none
  | .bool b, _, _, _, _, hr, hl => by
    cases hr with
    | data => cases hl; exact relData _
    | bool =>
      cases hl with
      | bool b' =>
        simp only [mergeDeep]
        split
        · exact .some (.bool b)
        · exact .none
      | list h' => exact .none
      | schema h' => exact .none
  | .string s, _, _, _, _, hr, hl => by
    cases hr with
    | data => cases hl; exact relData _
    | target =>
      cases hl with
      | target s' =>
        simp only [mergeDeep, same, beq_iff_eq, inj.eq_iff]
        split
        · exact .some (.target s)
        · exact .none
  | .null, _, _, _, _, hr, hl => by
    cases hr; cases hl; exact relData _
  | .number n, _, _, _, _, hr, hl => by
    cases hr; cases hl; exact relData _
termination_by structural right => right

lemma mergeFields_renamed (inj : Function.Injective f) :
    ∀ (fields : List (String × Json)) {fields' into into' : Fields Json} {slots : String → Slot},
      RenamedFields f slots fields fields' → RenamedFields f slots into into' →
      Option.Rel (RenamedFields f slots) (mergeFields into fields) (mergeFields into' fields')
  | [], _, _, _, _, h, h' => by cases h; exact .some h'
  | (key, v) :: rest, _, into, into', _, h, h' => by
    cases h with
    | @cons _ _ _ v' _ rest' head tail =>
      have old := h'.get? key
      simp only [mergeFields]
      revert old
      generalize Fields.get? key into = a
      generalize Fields.get? key into' = b
      intro old
      cases old with
      | none => exact mergeFields_renamed inj rest tail (h'.set head)
      | some old =>
        rename_i a b
        have merged := mergeDeep_renamed inj v head old
        simp only
        revert merged
        generalize mergeDeep a v = x
        generalize mergeDeep b v' = y
        intro merged
        cases merged with
        | none => exact .none
        | some merged => exact mergeFields_renamed inj rest tail (h'.set merged)
termination_by structural fields => fields

end

end Json

namespace SchemaObject

lemma renamed_present {name : String} {a b : Option Json} {rest rest' : List (String × Option Json)}
    (head : Option.Rel (RenamedAt f (Slot.ofField name)) a b)
    (tail : RenamedFields f Slot.ofField (present rest) (present rest')) :
    RenamedFields f Slot.ofField (present ((name, a) :: rest)) (present ((name, b) :: rest')) := by
  cases head with
  | none => exact tail
  | some h => exact .cons h tail

lemma kept_present {name : String} (place : Slot.ofField name = .data) {a : Option Json}
    {rest rest' : List (String × Option Json)}
    (tail : RenamedFields f Slot.ofField (present rest) (present rest')) :
    RenamedFields f Slot.ofField (present ((name, a) :: rest)) (present ((name, a) :: rest')) :=
  renamed_present (by rw [place]; exact Json.relData a) tail

/-- Whether the fields of a schema are renamed with it. -/
abbrev Writes (f : String → String) (s : SchemaObject) : Prop :=
  RenamedFields f Slot.ofField s.toFields (s.rename f).toFields

lemma objectsOf_renamed {schemas : List SchemaObject} (each : ∀ s ∈ schemas, Writes f s) :
    RenamedItems f (objectsOf schemas) (objectsOf (renameList f schemas)) := by
  induction schemas with
  | nil => exact .nil
  | cons s rest ih =>
    exact .cons (.schema (each s List.mem_cons_self))
      (ih fun t mem => each t (List.mem_cons_of_mem _ mem))

lemma fieldsOfProperties_renamed {properties : List (String × SchemaObject)}
    (each : ∀ s ∈ properties.map Prod.snd, Writes f s) :
    RenamedFields f (fun _ => .nested) (fieldsOfProperties properties)
      (fieldsOfProperties (renameProperties f properties)) := by
  induction properties with
  | nil => exact .nil
  | cons property rest ih =>
    exact .cons (.schema (each property.2 List.mem_cons_self))
      (ih fun t mem => each t (List.mem_cons_of_mem _ mem))

lemma ofProperties?_renamed {properties : Option (List (String × SchemaObject))}
    (each : ∀ s ∈ (properties.getD []).map Prod.snd, Writes f s) :
    Option.Rel (RenamedAt f .properties) (ofProperties? properties)
      (ofProperties? (renameProperties? f properties)) := by
  cases properties with
  | none => exact .none
  | some properties => exact .some (.properties (fieldsOfProperties_renamed each))

lemma ofFurther?_renamed {further : Option (Further SchemaObject)}
    (each : ∀ s ∈ (further.map Further.parts).getD [], Writes f s) :
    Option.Rel (RenamedAt f .nested) (ofFurther? further)
      (ofFurther? (renameFurther? f further)) := by
  rcases further with _ | yes | s
  · exact .none
  · exact .some (.bool yes)
  · exact .some (.schema (each s List.mem_cons_self))

lemma ofItems?_renamed {items : Option (Items SchemaObject)}
    (each : ∀ s ∈ (items.map Items.parts).getD [], Writes f s) :
    Option.Rel (RenamedAt f .nested) (ofItems? items) (ofItems? (renameItems? f items)) := by
  rcases items with _ | schemas | s
  · exact .none
  · exact .some (.list (objectsOf_renamed each))
  · exact .some (.schema (each s List.mem_cons_self))

lemma ofSchemas?_renamed {schemas : Option (List SchemaObject)}
    (each : ∀ s ∈ schemas.getD [], Writes f s) :
    Option.Rel (RenamedAt f .nested) (ofSchemas? schemas)
      (ofSchemas? (renameSchemas? f schemas)) := by
  cases schemas with
  | none => exact .none
  | some schemas => exact .some (.list (objectsOf_renamed each))

/-- The fields of a renamed schema are the renamed fields of the schema. -/
lemma toFields_renamed (s : SchemaObject) : Writes f s := by
  induction s using SchemaObject.induct with
  | step s ih =>
    obtain ⟨reference, _, _, _, properties, _, further, items, furtherItems, _, oneOf, allOf⟩ := s
    simp only [mem_parts] at ih
    have isTarget : Option.Rel (RenamedAt f .target) (reference.map Json.string)
        ((reference.map f).map Json.string) := by
      cases reference with
      | none => exact .none
      | some r => exact .some (.target r)
    have isNamed := ofProperties?_renamed fun t mem => ih t (.inl mem)
    have isFurther := ofFurther?_renamed fun t mem => ih t (.inr (.inl mem))
    have isItems := ofItems?_renamed fun t mem => ih t (.inr (.inr (.inl mem)))
    have isLater := ofFurther?_renamed fun t mem => ih t (.inr (.inr (.inr (.inl mem))))
    have isOne := ofSchemas?_renamed fun t mem => ih t (.inr (.inr (.inr (.inr (.inl mem)))))
    have isAll := ofSchemas?_renamed fun t mem => ih t (.inr (.inr (.inr (.inr (.inr mem)))))
    rw [Writes]
    rw [rename, toFields, toFields]
    refine renamed_present isTarget (kept_present rfl (kept_present rfl (kept_present rfl ?_)))
    refine renamed_present isNamed (kept_present rfl (renamed_present isFurther ?_))
    refine renamed_present isItems (renamed_present isLater (kept_present rfl ?_))
    refine renamed_present isOne (renamed_present isAll (kept_present rfl (kept_present rfl ?_)))
    refine kept_present rfl (kept_present rfl (kept_present rfl (kept_present rfl ?_)))
    refine kept_present rfl (kept_present rfl (kept_present rfl (kept_present rfl ?_)))
    exact kept_present rfl (kept_present rfl .nil)

end SchemaObject

namespace Json

mutual

/-- Every value can be read back from its document tree. -/
lemma value?_written : ∀ v : Json, v.written.value?.isSome
  | .null | .bool _ | .number _ | .string _ => rfl
  | .array items => by
    have := values?_written items
    simpa [written, Written.value?] using this
  | .object fields => by
    have := fieldValues?_written fields
    simpa [written, Written.value?] using this
termination_by structural v => v

lemma values?_written : ∀ items : List Json, (Written.values? (writtenItems items)).isSome
  | [] => rfl
  | v :: rest => by
    obtain ⟨x, hx⟩ := Option.isSome_iff_exists.mp (value?_written v)
    obtain ⟨xs, hxs⟩ := Option.isSome_iff_exists.mp (values?_written rest)
    simp [writtenItems, Written.values?, hx, hxs]
termination_by structural items => items

lemma fieldValues?_written :
    ∀ fields : List (String × Json), (Written.fieldValues? (writtenFields fields)).isSome
  | [] => rfl
  | (_, v) :: rest => by
    obtain ⟨x, hx⟩ := Option.isSome_iff_exists.mp (value?_written v)
    obtain ⟨xs, hxs⟩ := Option.isSome_iff_exists.mp (fieldValues?_written rest)
    simp [writtenFields, Written.fieldValues?, hx, hxs]
termination_by structural fields => fields

end

end Json

namespace SchemaObject

/-- A list whose first item is no text is no schema. -/
lemma ofWritten?_array_eq_none {items : List Json}
    (first : ∀ v ∈ items.head?,
      ∃ b fields list, v = .bool b ∨ v = .object fields ∨ v = .array list) :
    ofWritten? (Json.written (.array items)) = none := by
  cases items with
  | nil => rfl
  | cons v rest =>
    obtain ⟨b, fields, list, rfl | rfl | rfl⟩ := first v rfl
    all_goals
      simp only [Json.written, ofWritten?]
      split <;> rfl

lemma array_renamed (h : RenamedItems f items items') :
    ofWritten? (Json.written (.array items)) = none ∧
      ofWritten? (Json.written (.array items')) = none := by
  cases h with
  | nil => exact ⟨rfl, rfl⟩
  | cons head _ =>
    constructor <;> refine ofWritten?_array_eq_none fun v mem => ?_ <;>
      obtain rfl := Option.some.inj mem <;> cases head <;> simp

/-- How the parts of a field correspond when the names of references differ. -/
structure PartsRenamed (f : String → String) (slot : Slot) (part part' : Part) : Prop where
  schema : slot = .nested → part'.schema () = (part.schema ()).map (rename f)
  schemas : slot = .nested → part'.schemas () = (part.schemas ()).map (List.map (rename f))
  properties : slot = .properties →
    part'.properties () = (part.properties ()).map (Fields.mapValues (rename f))

lemma assign_data {name : String} (place : Slot.ofField name = .data) (w : Json.Written)
    (part part' : Part) (s : SchemaObject) :
    assign name w part' (s.rename f) = (assign name w part s).map (rename f) := by
  simp only [Slot.ofField] at place
  simp only [assign]
  split
  · rfl
  · split at place <;> try cases place
    split <;> simp_all [Option.map_map, Function.comp_def, rename_eq]

lemma further?_of_ne_bool {v : Json} (h : ∀ b, v ≠ .bool b) (part : Part) :
    further? v.written part = (part.schema ()).map .schema := by
  have readable := Json.value?_written v
  cases v with
  | bool b => exact absurd rfl (h b)
  | _ =>
    simp only [Json.written] at readable ⊢
    simp only [further?, readable, if_true]

lemma further?_renamed {part part' : Part} (h : RenamedAt f .nested v v')
    (parts : PartsRenamed f .nested part part') :
    further? v'.written part' = (further? v.written part).map (Further.map (rename f)) := by
  cases h with
  | bool b => rfl
  | schema _ | list _ =>
    rw [further?_of_ne_bool (by simp), further?_of_ne_bool (by simp), parts.schema rfl]
    simp [Option.map_map, Function.comp_def, Further.map]

lemma items?_renamed {part part' : Part} (parts : PartsRenamed f .nested part part') :
    items? v'.written part' = (items? v.written part).map (Items.map (rename f)) := by
  simp only [items?, Json.value?_written, if_true, parts.schemas rfl, parts.schema rfl]
  cases part.schemas () with
  | some schemas => rfl
  | none => simp [Option.map_map, Function.comp_def, Items.map]

variable (f) in
/-- A field that is set to what is read for it. -/
lemma set_renamed {α : Type} {a a' : Option α} {g : α → α} (read : a' = a.map g)
    (set : α → SchemaObject → SchemaObject) (s : SchemaObject)
    (same : ∀ x, set (g x) (s.rename f) = (set x s).rename f) :
    (a'.map fun x => set x (s.rename f)) = (a.map fun x => set x s).map (rename f) := by
  cases a with
  | none => rw [read]; rfl
  | some x =>
    rw [read]
    exact congrArg some (same x)

lemma assign_renamed {name : String} {part part' : Part}
    (h : RenamedAt f (Slot.ofField name) v v')
    (parts : PartsRenamed f (Slot.ofField name) part part') (s : SchemaObject) :
    assign name v'.written part' (s.rename f) = (assign name v.written part s).map (rename f) := by
  simp only [Slot.ofField] at h parts
  split at h
  · cases h with
    | target t =>
      change some { s.rename f with reference := some (f t) } =
        some (rename f { s with reference := some t })
      simp [rename_eq]
  · cases h
    exact set_renamed f (parts.properties rfl) (fun x s => { s with properties := some x }) s
      fun x => by simp [rename_eq]
  · have changed := set_renamed f (further?_renamed h parts)
      (fun x s => { s with additionalProperties := some x }) s fun x => by simp [rename_eq]
    cases h <;> exact changed
  · have changed := set_renamed f (@items?_renamed f v v' _ _ parts)
      (fun x s => { s with items := some x }) s fun x => by simp [rename_eq]
    cases h <;> exact changed
  · have changed := set_renamed f (further?_renamed h parts)
      (fun x s => { s with additionalItems := some x }) s fun x => by simp [rename_eq]
    cases h <;> exact changed
  · have changed := set_renamed f (parts.schemas rfl) (fun x s => { s with oneOf := some x }) s
      fun x => by simp [rename_eq]
    cases h <;> exact changed
  · have changed := set_renamed f (parts.schemas rfl) (fun x s => { s with allOf := some x }) s
      fun x => by simp [rename_eq]
    cases h <;> exact changed
  · cases h
    exact assign_data (by unfold Slot.ofField; split <;> first | rfl | contradiction) _ _ _ _

mutual

/-- Reading the value of a schema under other names gives the renamed schema. -/
lemma ofWritten?_renamed : ∀ (v : Json) {v' : Json}, RenamedAt f .nested v v' →
    ofWritten? v'.written = (ofWritten? v.written).map (rename f)
  | .object fields, _, h => by
    cases h with
    | schema h =>
      simp only [Json.written, ofWritten?]
      exact ofFields?_renamed fields h [] {}
  | .array items, _, h => by
    cases h with
    | list h =>
      obtain ⟨left, right⟩ := array_renamed h
      rw [left, right]
      rfl
  | .bool b, _, h => by cases h; rfl
  | .null, _, h => by cases h
  | .number _, _, h => by cases h
  | .string _, _, h => by cases h
termination_by structural v => v

lemma schemasOf?_renamed : ∀ (v : Json) {v' : Json}, RenamedAt f .nested v v' →
    schemasOf? v'.written = (schemasOf? v.written).map (List.map (rename f))
  | .array items, _, h => by
    cases h with
    | list h => exact listOf?_renamed items h
  | .object fields, _, h => by cases h; rfl
  | .bool b, _, h => by cases h; rfl
  | .null, _, h => by cases h
  | .number _, _, h => by cases h
  | .string _, _, h => by cases h
termination_by structural v => v

lemma propertiesOf?_renamed : ∀ (v : Json) {v' : Json}, RenamedAt f .properties v v' →
    propertiesOf? v'.written = (propertiesOf? v.written).map (Fields.mapValues (rename f))
  | .object fields, _, h => by
    cases h with
    | properties h =>
      simp only [Json.written, propertiesOf?, pairsOf?_renamed fields h, Option.map_map]
      congr 1
      funext pairs
      exact Fields.ofPairs_mapValues (rename f) pairs
  | .array _, _, h => by cases h
  | .bool _, _, h => by cases h
  | .null, _, h => by cases h
  | .number _, _, h => by cases h
  | .string _, _, h => by cases h
termination_by structural v => v

lemma ofFields?_renamed : ∀ (fields : List (String × Json)) {fields' : Fields Json},
    RenamedFields f Slot.ofField fields fields' → ∀ (seen : List String) (s : SchemaObject),
    ofFields? (Json.writtenFields fields') seen (s.rename f) =
      (ofFields? (Json.writtenFields fields) seen s).map (rename f)
  | [], _, h, seen, s => by cases h; rfl
  | (name, v) :: rest, _, h, seen, s => by
    cases h with
    | @cons _ _ _ v' _ rest' head tail =>
      let part (w : Json.Written) : Part :=
        ⟨fun _ => ofWritten? w, fun _ => schemasOf? w, fun _ => propertiesOf? w⟩
      have parts : PartsRenamed f (Slot.ofField name) (part v.written) (part v'.written) :=
        ⟨fun e => ofWritten?_renamed v (e ▸ head), fun e => schemasOf?_renamed v (e ▸ head),
          fun e => propertiesOf?_renamed v (e ▸ head)⟩
      have step := assign_renamed head parts s
      simp only [part] at step
      simp only [Json.writtenFields, ofFields?, step]
      by_cases again : seen.contains name
      · simp only [again, if_true]
        rfl
      · by_cases known : fieldNames.contains name
        · simp only [again, known, if_true, if_false, Bool.false_eq_true]
          cases assign name v.written _ s with
          | none => rfl
          | some s => exact ofFields?_renamed rest tail (name :: seen) s
        · simp only [again, known, if_false, Bool.false_eq_true]
          exact ofFields?_renamed rest tail seen s
termination_by structural fields => fields

lemma listOf?_renamed : ∀ (items : List Json) {items' : List Json}, RenamedItems f items items' →
    listOf? (Json.writtenItems items') =
      (listOf? (Json.writtenItems items)).map (List.map (rename f))
  | [], _, h => by cases h; rfl
  | v :: rest, _, h => by
    cases h with
    | cons head tail =>
      simp only [Json.writtenItems, listOf?, ofWritten?_renamed v head, listOf?_renamed rest tail]
      cases ofWritten? v.written with
      | none => rfl
      | some s => cases listOf? (Json.writtenItems rest) <;> rfl
termination_by structural items => items

lemma pairsOf?_renamed : ∀ (fields : List (String × Json)) {fields' : Fields Json},
    RenamedFields f (fun _ => .nested) fields fields' →
    pairsOf? (Json.writtenFields fields') =
      (pairsOf? (Json.writtenFields fields)).map (Fields.mapValues (rename f))
  | [], _, h => by cases h; rfl
  | (name, v) :: rest, _, h => by
    cases h with
    | cons head tail =>
      simp only [Json.writtenFields, pairsOf?, ofWritten?_renamed v head,
        pairsOf?_renamed rest tail]
      cases ofWritten? v.written with
      | none => rfl
      | some s => cases pairsOf? (Json.writtenFields rest) <;> rfl
termination_by structural fields => fields

end

end SchemaObject

end EventContracts
