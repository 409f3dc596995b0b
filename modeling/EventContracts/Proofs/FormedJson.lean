import EventContracts.Proofs.DeepMerges
import EventContracts.Proofs.RenamedJson
import Mathlib.Data.List.Nodup

/-! Schema objects that are well formed, and their JSON values. Every required name is a property;
in a strict sense, a reference also stands alone, and no type and no property is there twice. A
merge keeps the first of these and not the others: it puts lists one after the other, and a
reference next to other fields. -/

namespace EventContracts

namespace SchemaObject

/-- What is asked of a schema object by itself. -/
structure Formed (strict : Bool) (s : SchemaObject) : Prop where
  alone : strict → ∀ target, s.reference = some target → s = .refer target
  types : strict → ∀ t, s.typeNames = some t → t.names.Nodup
  keys : strict → (Fields.names (s.properties.getD [])).Nodup
  required : ∀ name ∈ s.required.getD [], name ∈ Fields.names (s.properties.getD [])

/-- Whether something holds of a schema object at every depth. -/
inductive Throughout (P : SchemaObject → Prop) : SchemaObject → Prop where
  | mk {s : SchemaObject} (here : P s) (parts : ∀ part ∈ s.parts, Throughout P part) :
      Throughout P s

namespace Throughout

variable {P Q : SchemaObject → Prop} {s : SchemaObject}

lemma here (h : s.Throughout P) : P s := by
  cases h with
  | mk here _ => exact here

lemma parts (h : s.Throughout P) : ∀ part ∈ s.parts, part.Throughout P := by
  cases h with
  | mk _ parts => exact parts

lemma imp (weaker : ∀ s, P s → Q s) (h : s.Throughout P) : s.Throughout Q := by
  induction h with
  | mk here _ ih => exact .mk (weaker _ here) ih

end Throughout

end SchemaObject

/-- The fields under `properties` in the value of a schema object. -/
def propertiesIn (fields : Fields Json) : Fields Json :=
  match Fields.get? "properties" fields with
  | some (.object properties) => properties
  | _ => []

/-- What is asked of the fields of a schema object by themselves. -/
structure FormedFields (strict : Bool) (fields : Fields Json) : Prop where
  nodup : (Fields.names fields).Nodup
  alone : strict → ∀ v, Fields.get? "$ref" fields = some v → fields = [("$ref", v)]
  types : strict → ∀ items, Fields.get? "type" fields = some (.array items) → items.Nodup
  required : ∀ items, Fields.get? "required" fields = some (.array items) →
    ∀ item ∈ items, ∃ name ∈ Fields.names (propertiesIn fields), item = .string name

/-- Values that are well formed in a place of the value of a schema object. -/
inductive FormedAt (strict : Bool) : Slot → Json → Prop where
  | data (v : Json) : FormedAt strict .data v
  | target (v : Json) : FormedAt strict .target v
  | properties {fields : Fields Json}
      (each : ∀ field ∈ fields, FormedAt strict .nested field.2) :
      FormedAt strict .properties (.object fields)
  | bool (b : Bool) : FormedAt strict .nested (.bool b)
  | schema {fields : Fields Json} (here : FormedFields strict fields)
      (each : ∀ field ∈ fields, FormedAt strict (Slot.ofField field.1) field.2) :
      FormedAt strict .nested (.object fields)
  | list {items : List Json} (each : ∀ item ∈ items, FormedAt strict .nested item) :
      FormedAt strict .nested (.array items)

namespace Json

variable {into fields merged : Fields Json}

/-- What stands under a name in two objects and in the object that they are merged into. -/
inductive Combined : Option Json → Option Json → Option Json → Prop where
  | left (a : Option Json) : Combined a none a
  | right (v : Json) : Combined none (some v) (some v)
  | both {old v w : Json} (merged : mergeDeep old v = some w) :
      Combined (some old) (some v) (some w)

lemma Combined.of_absent {a c : Option Json} (h : Combined a none c) : c = a := by
  cases h
  rfl

/-- The first step of a merge of fields: what the first field becomes. -/
lemma mergeFields_cons {key : String} {v : Json} {rest : Fields Json}
    (h : mergeFields into ((key, v) :: rest) = some merged) :
    ∃ w, Combined (Fields.get? key into) (some v) (some w) ∧
      mergeFields (Fields.set key w into) rest = some merged := by
  rw [mergeFields] at h
  cases old : Fields.get? key into with
  | none =>
    rw [old] at h
    exact ⟨v, .right v, h⟩
  | some a =>
    rw [old] at h
    obtain ⟨w, made, rest⟩ := Option.bind_eq_some_iff.mp h
    exact ⟨w, .both made, rest⟩

lemma names_mergeFields {name : String} (h : mergeFields into fields = some merged) :
    name ∈ Fields.names merged ↔ name ∈ Fields.names into ∨ name ∈ Fields.names fields :=
  Fields.mem_names_mergeWith? ((mergeFields_eq into fields).symm.trans h)

lemma names_mergeFields_nodup (nodup : (Fields.names into).Nodup)
    (h : mergeFields into fields = some merged) : (Fields.names merged).Nodup :=
  Fields.names_mergeWith?_nodup nodup ((mergeFields_eq into fields).symm.trans h)

lemma combined_of_mergeFields (nodup : (Fields.names fields).Nodup)
    (h : mergeFields into fields = some merged) (name : String) :
    Combined (Fields.get? name into) (Fields.get? name fields) (Fields.get? name merged) := by
  have found := Fields.get?_mergeWith? nodup ((mergeFields_eq into fields).symm.trans h) name
  cases later : Fields.get? name fields with
  | none =>
    rw [later] at found
    rw [found]
    exact .left _
  | some v =>
    have listed : name ∈ Fields.names merged :=
      (names_mergeFields h).mpr (.inr (List.mem_map_of_mem (Fields.mem_of_get? later)))
    obtain ⟨w, there⟩ : ∃ w, Fields.get? name merged = some w :=
      Option.ne_none_iff_exists'.mp fun absent => Fields.get?_eq_none.mp absent listed
    rw [later, there] at found
    rw [there]
    cases old : Fields.get? name into with
    | none =>
      rw [old] at found
      obtain rfl := Option.some.inj found
      exact .right w
    | some a =>
      rw [old] at found
      exact .both found.symm

/-- Fields with different names are put one after the other. -/
lemma mergeFields_of_disjoint (nodup : (Fields.names (into ++ fields)).Nodup) :
    mergeFields into fields = some (into ++ fields) := by
  induction fields generalizing into with
  | nil => rw [List.append_nil]; rfl
  | cons field rest ih =>
    obtain ⟨key, v⟩ := field
    have fresh : Fields.get? key into = none := by
      rw [Fields.get?_eq_none]
      intro mem
      rw [Fields.names, List.map_append, List.nodup_append] at nodup
      exact nodup.2.2 _ mem _ (List.mem_map_of_mem List.mem_cons_self) rfl
    rw [mergeFields, fresh]
    change mergeFields (Fields.set key v into) rest = _
    rw [Fields.set_of_absent fresh, ih, List.append_assoc, List.singleton_append]
    rwa [List.append_assoc]

/-- Only an object is merged into an object. -/
lemma mergeDeep_object {v w : Json} (h : mergeDeep (.object into) v = some w) :
    ∃ fields merged, v = .object fields ∧ w = .object merged ∧
      mergeFields into fields = some merged := by
  cases v with
  | object fields =>
    rw [mergeDeep] at h
    obtain ⟨merged, made, rfl⟩ := Option.map_eq_some_iff.mp h
    exact ⟨fields, merged, rfl, rfl, made⟩
  | _ => simp [mergeDeep, same] at h

/-- A list is merged of lists. -/
lemma mergeDeep_array {v w : Json} {items : List Json} (h : mergeDeep v w = some (.array items)) :
    ∃ first second, v = .array first ∧ w = .array second ∧ items = first ++ second := by
  cases w with
  | array second =>
    cases v with
    | array first =>
      rw [mergeDeep] at h
      obtain rfl := Json.array.inj (Option.some.inj h)
      exact ⟨first, second, rfl, rfl, rfl⟩
    | _ => simp [mergeDeep] at h
  | object fields =>
    cases v with
    | object into =>
      rw [mergeDeep] at h
      obtain ⟨merged, -, same⟩ := Option.map_eq_some_iff.mp h
      cases same
    | _ => simp [mergeDeep] at h
  | _ => simp [mergeDeep] at h

/-- The properties of a merged object are those of both sides. -/
lemma names_propertiesIn (nodup : (Fields.names fields).Nodup)
    (h : mergeFields into fields = some merged) {name : String}
    (mem : name ∈ Fields.names (propertiesIn into) ∨ name ∈ Fields.names (propertiesIn fields)) :
    name ∈ Fields.names (propertiesIn merged) := by
  have combined := combined_of_mergeFields nodup h "properties"
  simp only [propertiesIn] at mem ⊢
  revert mem combined
  generalize Fields.get? "properties" into = a
  generalize Fields.get? "properties" fields = b
  generalize Fields.get? "properties" merged = c
  intro mem combined
  cases combined with
  | left =>
    rcases mem with mem | mem
    · exact mem
    · cases mem
  | right =>
    rcases mem with mem | mem
    · cases mem
    · exact mem
  | @both old v w made =>
    cases old with
    | object into =>
      obtain ⟨fields, merged, rfl, rfl, inner⟩ := mergeDeep_object made
      exact (names_mergeFields inner).mpr mem
    | _ =>
      rcases mem with mem | mem
      · cases mem
      · cases v with
        | object fields => simp [mergeDeep] at made
        | _ => cases mem

lemma formedFields_merge (left : FormedFields false into) (right : FormedFields false fields)
    (h : mergeFields into fields = some merged) : FormedFields false merged := by
  refine ⟨names_mergeFields_nodup left.nodup h, Bool.noConfusion, Bool.noConfusion, ?_⟩
  have properties {name : String} (mem : name ∈ Fields.names (propertiesIn into) ∨
      name ∈ Fields.names (propertiesIn fields)) : name ∈ Fields.names (propertiesIn merged) :=
    names_propertiesIn right.nodup h mem
  have fromLeft {items : List Json} (found : Fields.get? "required" into = some (.array items)) :
      ∀ item ∈ items, ∃ name ∈ Fields.names (propertiesIn merged), item = .string name := by
    intro item mem
    obtain ⟨name, inside, rfl⟩ := left.required items found item mem
    exact ⟨name, properties (.inl inside), rfl⟩
  have fromRight {items : List Json}
      (found : Fields.get? "required" fields = some (.array items)) :
      ∀ item ∈ items, ∃ name ∈ Fields.names (propertiesIn merged), item = .string name := by
    intro item mem
    obtain ⟨name, inside, rfl⟩ := right.required items found item mem
    exact ⟨name, properties (.inr inside), rfl⟩
  intro items found
  have combined := combined_of_mergeFields right.nodup h "required"
  rw [found] at combined
  generalize old : Fields.get? "required" into = a at combined
  generalize new : Fields.get? "required" fields = b at combined
  cases combined with
  | left => exact fromLeft old
  | right => exact fromRight new
  | both made =>
    obtain ⟨first, second, rfl, rfl, rfl⟩ := mergeDeep_array made
    intro item mem
    rcases List.mem_append.mp mem with mem | mem
    · exact fromLeft old item mem
    · exact fromRight new item mem

mutual

/-- Merging keeps what is required among the properties, at every depth. -/
lemma mergeDeep_formed : ∀ (right : Json) {left merged : Json} {slot : Slot},
    FormedAt false slot right → FormedAt false slot left →
    mergeDeep left right = some merged → FormedAt false slot merged
  | .object fields, _, _, _, hr, hl, h => by
    cases hr with
    | data => exact .data _
    | target => exact .target _
    | properties each =>
      cases hl with
      | properties each' =>
        obtain ⟨merged, made, rfl⟩ := Option.map_eq_some_iff.mp h
        exact .properties (mergeFields_formed fields (fun _ => .nested) each each' made)
    | schema here each =>
      cases hl with
      | bool b => cases h
      | list _ => cases h
      | schema here' each' =>
        obtain ⟨merged, made, rfl⟩ := Option.map_eq_some_iff.mp h
        exact .schema (formedFields_merge here' here made)
          (mergeFields_formed fields _ each each' made)
  | .array items, _, _, _, hr, hl, h => by
    cases hr with
    | data => exact .data _
    | target => exact .target _
    | list each =>
      cases hl with
      | bool b => cases h
      | schema _ _ => cases h
      | list each' =>
        obtain rfl := Option.some.inj h
        refine .list ?_
        intro item mem
        rcases List.mem_append.mp mem with mem | mem
        · exact each' item mem
        · exact each item mem
  | .bool b, left, _, _, hr, _, h => by
    cases hr with
    | data => exact .data _
    | target => exact .target _
    | bool =>
      rw [mergeDeep] at h
      split at h
      · obtain rfl := Option.some.inj h
        exact .bool b
      · cases h
  | .string s, _, _, _, hr, hl, h => by
    cases hr with
    | data => exact .data _
    | target => exact .target _
  | .null, _, _, _, hr, hl, h => by
    cases hr with
    | data => exact .data _
    | target => exact .target _
  | .number n, _, _, _, hr, hl, h => by
    cases hr with
    | data => exact .data _
    | target => exact .target _
termination_by structural right => right

lemma mergeFields_formed : ∀ (fields : List (String × Json)) {into merged : Fields Json}
    (slots : String → Slot), (∀ field ∈ fields, FormedAt false (slots field.1) field.2) →
    (∀ field ∈ into, FormedAt false (slots field.1) field.2) →
    mergeFields into fields = some merged →
    ∀ field ∈ merged, FormedAt false (slots field.1) field.2
  | [], _, _, _, _, hl, h => by
    obtain rfl := Option.some.inj h
    exact hl
  | (key, v) :: rest, into, _, slots, hr, hl, h => by
    have head : FormedAt false (slots key) v := hr _ List.mem_cons_self
    have tail := fun field mem => hr field (List.mem_cons_of_mem _ mem)
    obtain ⟨w, first, h⟩ := mergeFields_cons h
    have formed : FormedAt false (slots key) w := by
      generalize found : Fields.get? key into = a at first
      cases first with
      | right => exact head
      | both made =>
        exact mergeDeep_formed v head (hl (key, _) (Fields.mem_of_get? found)) made
    refine mergeFields_formed rest slots tail ?_ h
    intro field mem
    rcases Fields.mem_of_mem_set mem with rfl | mem
    · exact formed
    · exact hl field mem
termination_by structural fields => fields

end

end Json

namespace SchemaObject

lemma mem_present {field : String × Json} {fields : List (String × Option Json)} :
    field ∈ present fields ↔ (field.1, some field.2) ∈ fields := by
  rw [present, List.mem_flatMap]
  constructor
  · rintro ⟨⟨name, value⟩, mem, inside⟩
    cases value with
    | none => cases inside
    | some v =>
      obtain rfl := List.mem_singleton.mp inside
      exact mem
  · intro mem
    exact ⟨_, mem, List.mem_singleton_self _⟩

lemma names_present_sublist (fields : List (String × Option Json)) :
    (Fields.names (present fields)).Sublist (Fields.names fields) := by
  induction fields with
  | nil => exact .slnil
  | cons field rest ih =>
    obtain ⟨name, value⟩ := field
    cases value with
    | none => exact .cons _ ih
    | some v => exact .cons_cons _ ih

lemma get?_present {fields : List (String × Option Json)} (nodup : (Fields.names fields).Nodup)
    (name : String) :
    Fields.get? name (present fields) = (Fields.get? name fields).join := by
  induction fields with
  | nil => rfl
  | cons field rest ih =>
    obtain ⟨key, value⟩ := field
    obtain ⟨fresh, others⟩ := List.nodup_cons.mp nodup
    by_cases same : key = name
    · subst same
      rw [Fields.get?, if_pos rfl]
      cases value with
      | none =>
        change Fields.get? key (present rest) = none
        rw [ih others, Fields.get?_eq_none.mpr fresh]
        rfl
      | some v =>
        change Fields.get? key ((key, v) :: present rest) = some v
        rw [Fields.get?, if_pos rfl]
    · rw [Fields.get?, if_neg same, ← ih others]
      cases value with
      | none => rfl
      | some v =>
        change Fields.get? name ((key, v) :: present rest) = _
        rw [Fields.get?, if_neg same]

/-- Every field that is written has one of the known names, and none is written twice. -/
lemma names_toFields_nodup (s : SchemaObject) : (Fields.names s.toFields).Nodup := by
  obtain ⟨⟩ := s
  rw [toFields]
  refine (names_present_sublist _).nodup ?_
  simp [Fields.names]

variable {strict : Bool}

lemma names_fieldsOfProperties (properties : List (String × SchemaObject)) :
    Fields.names (fieldsOfProperties properties) = Fields.names properties := by
  induction properties with
  | nil => rfl
  | cons property rest ih => exact congrArg (property.1 :: ·) ih

lemma get?_toFields (s : SchemaObject) :
    Fields.get? "$ref" s.toFields = s.reference.map .string ∧
      Fields.get? "type" s.toFields = s.typeNames.map TypeNames.toJson ∧
      Fields.get? "properties" s.toFields = ofProperties? s.properties ∧
      Fields.get? "required" s.toFields = s.required.map Json.strings := by
  obtain ⟨⟩ := s
  rw [toFields]
  refine ⟨?_, ?_, ?_, ?_⟩
  all_goals
    rw [get?_present (by simp [Fields.names])]
    rfl

/-- The fields of a schema object that is well formed by itself. -/
lemma formedFields_of_formed {s : SchemaObject} (formed : s.Formed strict) :
    FormedFields strict s.toFields := by
  obtain ⟨reference, types, properties, required⟩ := get?_toFields s
  refine ⟨names_toFields_nodup s, ?_, ?_, ?_⟩
  · intro yes v found
    rw [reference] at found
    obtain ⟨target, is, rfl⟩ := Option.map_eq_some_iff.mp found
    rw [formed.alone yes target is]
    rfl
  · intro yes items found
    rw [types] at found
    obtain ⟨t, is, written⟩ := Option.map_eq_some_iff.mp found
    cases t with
    | one name => cases written
    | many names =>
      obtain rfl := Json.array.inj written
      exact List.Nodup.map (fun _ _ => Json.string.inj) (formed.types yes _ is)
  · intro items found item mem
    rw [required] at found
    obtain ⟨names, is, written⟩ := Option.map_eq_some_iff.mp found
    obtain rfl := Json.array.inj written
    obtain ⟨name, inside, rfl⟩ := List.mem_map.mp mem
    refine ⟨name, ?_, rfl⟩
    have declared := formed.required name (by rw [is]; exact inside)
    rw [propertiesIn, properties]
    cases here : s.properties with
    | none =>
      rw [here] at declared
      cases declared
    | some ps =>
      rw [here] at declared
      rwa [ofProperties?, names_fieldsOfProperties]

/-- Whether fields have well formed values, as they stand in the value of a schema object. -/
abbrev FormedEach (strict : Bool) (fields : Fields Json) : Prop :=
  ∀ field ∈ fields, FormedAt strict (Slot.ofField field.1) field.2

lemma formedEach_present {name : String} {a : Option Json} {rest : List (String × Option Json)}
    (head : ∀ v, a = some v → FormedAt strict (Slot.ofField name) v)
    (tail : FormedEach strict (present rest)) :
    FormedEach strict (present ((name, a) :: rest)) := by
  intro field mem
  rcases List.mem_cons.mp (mem_present.mp mem) with here | mem
  · obtain ⟨same, rfl⟩ := Prod.mk.inj here
    rw [same]
    exact head _ rfl
  · exact tail field (mem_present.mpr mem)

lemma formedEach_data {name : String} (place : Slot.ofField name = .data) {a : Option Json}
    {rest : List (String × Option Json)} (tail : FormedEach strict (present rest)) :
    FormedEach strict (present ((name, a) :: rest)) :=
  formedEach_present (fun v _ => by rw [place]; exact .data v) tail

lemma formedAt_objectsOf {schemas : List SchemaObject}
    (each : ∀ s ∈ schemas, FormedAt strict .nested (.object s.toFields)) :
    ∀ item ∈ objectsOf schemas, FormedAt strict .nested item := by
  induction schemas with
  | nil => exact fun _ mem => absurd mem List.not_mem_nil
  | cons s rest ih =>
    intro item mem
    rcases List.mem_cons.mp mem with rfl | mem
    · exact each s List.mem_cons_self
    · exact ih (fun t inside => each t (List.mem_cons_of_mem _ inside)) item mem

lemma formedAt_fieldsOfProperties {properties : List (String × SchemaObject)}
    (each : ∀ s ∈ properties.map Prod.snd, FormedAt strict .nested (.object s.toFields)) :
    ∀ field ∈ fieldsOfProperties properties, FormedAt strict .nested field.2 := by
  induction properties with
  | nil => exact fun _ mem => absurd mem List.not_mem_nil
  | cons property rest ih =>
    intro field mem
    rcases List.mem_cons.mp mem with rfl | mem
    · exact each property.2 List.mem_cons_self
    · exact ih (fun t inside => each t (List.mem_cons_of_mem _ inside)) field mem

lemma formedAt_ofFurther? {further : Option (Further SchemaObject)}
    (each : ∀ s ∈ (further.map Further.parts).getD [],
      FormedAt strict .nested (.object s.toFields)) {v : Json} (is : ofFurther? further = some v) :
    FormedAt strict .nested v := by
  rcases further with _ | yes | s
  · cases is
  · obtain rfl := Option.some.inj is
    exact .bool yes
  · obtain rfl := Option.some.inj is
    exact each s List.mem_cons_self

lemma formedAt_ofItems? {items : Option (Items SchemaObject)}
    (each : ∀ s ∈ (items.map Items.parts).getD [],
      FormedAt strict .nested (.object s.toFields)) {v : Json} (is : ofItems? items = some v) :
    FormedAt strict .nested v := by
  rcases items with _ | schemas | s
  · cases is
  · obtain rfl := Option.some.inj is
    exact .list (formedAt_objectsOf each)
  · obtain rfl := Option.some.inj is
    exact each s List.mem_cons_self

lemma formedAt_ofSchemas? {schemas : Option (List SchemaObject)}
    (each : ∀ s ∈ schemas.getD [], FormedAt strict .nested (.object s.toFields)) {v : Json}
    (is : ofSchemas? schemas = some v) : FormedAt strict .nested v := by
  cases schemas with
  | none => cases is
  | some schemas =>
    obtain rfl := Option.some.inj is
    exact .list (formedAt_objectsOf each)

lemma formedAt_ofProperties? {properties : Option (List (String × SchemaObject))}
    (each : ∀ s ∈ (properties.getD []).map Prod.snd,
      FormedAt strict .nested (.object s.toFields)) {v : Json}
    (is : ofProperties? properties = some v) : FormedAt strict .properties v := by
  cases properties with
  | none => cases is
  | some properties =>
    obtain rfl := Option.some.inj is
    exact .properties (formedAt_fieldsOfProperties each)

/-- The value of a schema object that is well formed at every depth. -/
lemma formedAt_toFields {s : SchemaObject} (formed : s.Throughout (Formed strict)) :
    FormedAt strict .nested (.object s.toFields) := by
  induction formed with
  | @mk s here _ ih =>
    refine .schema (formedFields_of_formed here) ?_
    obtain ⟨reference, _, _, _, properties, _, further, items, furtherItems, _, oneOf, allOf⟩ := s
    simp only [mem_parts] at ih
    rw [toFields]
    refine formedEach_present (fun v _ => .target v) ?_
    refine formedEach_data rfl (formedEach_data rfl (formedEach_data rfl ?_))
    refine formedEach_present (fun v => formedAt_ofProperties? fun t mem => ih t (.inl mem)) ?_
    refine formedEach_data rfl ?_
    refine formedEach_present (fun v => formedAt_ofFurther? fun t mem => ih t (.inr (.inl mem))) ?_
    refine formedEach_present
      (fun v => formedAt_ofItems? fun t mem => ih t (.inr (.inr (.inl mem)))) ?_
    refine formedEach_present
      (fun v => formedAt_ofFurther? fun t mem => ih t (.inr (.inr (.inr (.inl mem))))) ?_
    refine formedEach_data rfl ?_
    refine formedEach_present
      (fun v => formedAt_ofSchemas? fun t mem => ih t (.inr (.inr (.inr (.inr (.inl mem)))))) ?_
    refine formedEach_present
      (fun v => formedAt_ofSchemas? fun t mem => ih t (.inr (.inr (.inr (.inr (.inr mem)))))) ?_
    refine formedEach_data rfl (formedEach_data rfl (formedEach_data rfl (formedEach_data rfl ?_)))
    refine formedEach_data rfl (formedEach_data rfl (formedEach_data rfl (formedEach_data rfl ?_)))
    refine formedEach_data rfl (formedEach_data rfl (formedEach_data rfl (formedEach_data rfl ?_)))
    exact fun _ mem => absurd mem List.not_mem_nil

end SchemaObject

end EventContracts
