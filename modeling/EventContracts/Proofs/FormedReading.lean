import EventContracts.Proofs.FormedJson

/-! Reading keeps schema objects well formed. A field of an object is read once and changes nothing
but its own part of the schema object, so what is asked of the fields of the value by themselves
comes back as what is asked of the schema object. -/

namespace EventContracts

namespace SchemaObject

variable {strict : Bool}

/-- How the value of a field is read. -/
def partOf (v : Json) : Part :=
  ⟨fun _ => ofWritten? v.written, fun _ => schemasOf? v.written, fun _ => propertiesOf? v.written⟩

/-- A field changes nothing but itself. -/
lemma assign_keeps {name : String} {w : Json.Written} {part : Part} {s s' : SchemaObject}
    (h : assign name w part s = some s') :
    (name ≠ "$ref" → s'.reference = s.reference) ∧
      (name ≠ "type" → s'.typeNames = s.typeNames) ∧
      (name ≠ "properties" → s'.properties = s.properties) ∧
      (name ≠ "required" → s'.required = s.required) := by
  unfold assign at h
  split at h
  · obtain rfl := Option.some.inj h
    exact ⟨fun _ => rfl, fun _ => rfl, fun _ => rfl, fun _ => rfl⟩
  · split at h
    all_goals first
      | obtain ⟨x, -, rfl⟩ := Option.map_eq_some_iff.mp h
        exact ⟨fun other => by first | rfl | exact absurd rfl other,
          fun other => by first | rfl | exact absurd rfl other,
          fun other => by first | rfl | exact absurd rfl other,
          fun other => by first | rfl | exact absurd rfl other⟩
      | obtain rfl := Option.some.inj h
        exact ⟨fun _ => rfl, fun _ => rfl, fun _ => rfl, fun _ => rfl⟩

lemma parts_of_further? {w : Json.Written} {part : Part} {further : Further SchemaObject}
    (h : further? w part = some further) {t : SchemaObject} (mem : t ∈ further.parts) :
    part.schema () = some t := by
  unfold further? at h
  split at h
  · obtain rfl := Option.some.inj h
    cases mem
  · split at h
    · obtain ⟨s, read, rfl⟩ := Option.map_eq_some_iff.mp h
      obtain rfl := List.mem_singleton.mp mem
      exact read
    · cases h

lemma parts_of_items? {w : Json.Written} {part : Part} {items : Items SchemaObject}
    (h : items? w part = some items) {t : SchemaObject} (mem : t ∈ items.parts) :
    part.schema () = some t ∨ ∃ schemas, part.schemas () = some schemas ∧ t ∈ schemas := by
  rw [items?] at h
  split at h
  · split at h
    · rename_i schemas read
      obtain rfl := Option.some.inj h
      exact .inr ⟨schemas, read, mem⟩
    · obtain ⟨s, read, rfl⟩ := Option.map_eq_some_iff.mp h
      obtain rfl := List.mem_singleton.mp mem
      exact .inl read
  · cases h

/-- The parts of a schema object after a field was read: the new ones are those of the field. -/
lemma parts_of_assign {name : String} {w : Json.Written} {part : Part} {s s' : SchemaObject}
    (h : assign name w part s = some s') {t : SchemaObject} (mem : t ∈ s'.parts) :
    t ∈ s.parts ∨
      (Slot.ofField name = .properties ∧
        ∃ properties, part.properties () = some properties ∧ t ∈ properties.map Prod.snd) ∨
      (Slot.ofField name = .nested ∧
        (part.schema () = some t ∨ ∃ schemas, part.schemas () = some schemas ∧ t ∈ schemas)) := by
  unfold assign at h
  split at h
  · obtain rfl := Option.some.inj h
    exact .inl mem
  · split at h
    all_goals first
      | obtain rfl := Option.some.inj h
        exact .inl mem
      | obtain ⟨x, read, rfl⟩ := Option.map_eq_some_iff.mp h
    all_goals try exact .inl mem
    all_goals rw [mem_parts] at mem ⊢
    · rcases mem with new | old
      · exact .inr (.inl ⟨rfl, x, read, new⟩)
      · exact .inl (.inr old)
    · rcases mem with old | new | old
      · exact .inl (.inl old)
      · exact .inr (.inr ⟨rfl, .inl (parts_of_further? read new)⟩)
      · exact .inl (.inr (.inr old))
    · rcases mem with old | old | new | old
      · exact .inl (.inl old)
      · exact .inl (.inr (.inl old))
      · exact .inr (.inr ⟨rfl, parts_of_items? read new⟩)
      · exact .inl (.inr (.inr (.inr old)))
    · rcases mem with old | old | old | new | old
      · exact .inl (.inl old)
      · exact .inl (.inr (.inl old))
      · exact .inl (.inr (.inr (.inl old)))
      · exact .inr (.inr ⟨rfl, .inl (parts_of_further? read new)⟩)
      · exact .inl (.inr (.inr (.inr (.inr old))))
    · rcases mem with old | old | old | old | new | old
      · exact .inl (.inl old)
      · exact .inl (.inr (.inl old))
      · exact .inl (.inr (.inr (.inl old)))
      · exact .inl (.inr (.inr (.inr (.inl old))))
      · exact .inr (.inr ⟨rfl, .inr ⟨x, read, new⟩⟩)
      · exact .inl (.inr (.inr (.inr (.inr (.inr old)))))
    · rcases mem with old | old | old | old | old | new
      · exact .inl (.inl old)
      · exact .inl (.inr (.inl old))
      · exact .inl (.inr (.inr (.inl old)))
      · exact .inl (.inr (.inr (.inr (.inl old))))
      · exact .inl (.inr (.inr (.inr (.inr (.inl old)))))
      · exact .inr (.inr ⟨rfl, .inr ⟨x, read, new⟩⟩)

/-- Reading a field, and then the other ones. -/
lemma ofFields?_cons {name : String} {v : Json} {rest : Fields Json} {seen : List String}
    {s s' : SchemaObject}
    (h : ofFields? (Json.writtenFields ((name, v) :: rest)) seen s = some s') :
    (name ∉ fieldNames ∧ ofFields? (Json.writtenFields rest) seen s = some s') ∨
      ∃ middle, assign name v.written (partOf v) s = some middle ∧
        ofFields? (Json.writtenFields rest) (name :: seen) middle = some s' := by
  rw [Json.writtenFields, ofFields?] at h
  split at h
  · cases h
  · split at h
    · split at h
      · rename_i middle read
        exact .inr ⟨middle, read, h⟩
      · cases h
    · rename_i unknown
      exact .inl ⟨by simpa using unknown, h⟩

/-- Whether a part of a schema object is only changed by the field of a name. -/
def KeptBy {α : Type} (field : String) (get : SchemaObject → α) : Prop :=
  ∀ name w part s s', name ≠ field → assign name w part s = some s' → get s' = get s

lemma keptBy_reference : KeptBy "$ref" reference :=
  fun _ _ _ _ _ other h => (assign_keeps h).1 other

lemma keptBy_typeNames : KeptBy "type" typeNames :=
  fun _ _ _ _ _ other h => (assign_keeps h).2.1 other

lemma keptBy_properties : KeptBy "properties" properties :=
  fun _ _ _ _ _ other h => (assign_keeps h).2.2.1 other

lemma keptBy_required : KeptBy "required" required :=
  fun _ _ _ _ _ other h => (assign_keeps h).2.2.2 other

section Fields

variable {α : Type} {field : String} {get : SchemaObject → α} {fields : Fields Json}
  {seen : List String} {s s' : SchemaObject}

lemma get_of_absent (kept : KeptBy field get) (absent : field ∉ Fields.names fields)
    (h : ofFields? (Json.writtenFields fields) seen s = some s') : get s' = get s := by
  induction fields generalizing seen s with
  | nil =>
    obtain rfl := Option.some.inj h
    rfl
  | cons first rest ih =>
    obtain ⟨name, v⟩ := first
    have other : name ≠ field := fun same => absent (same ▸ List.mem_cons_self)
    have absent : field ∉ Fields.names rest := fun mem => absent (List.mem_cons_of_mem _ mem)
    rcases ofFields?_cons h with ⟨-, rest⟩ | ⟨middle, read, rest⟩
    · exact ih absent rest
    · exact (ih absent rest).trans (kept _ _ _ _ _ other read)

/-- A field of an object that is read is assigned once, and nothing else changes it. -/
lemma get_of_present (kept : KeptBy field get) (known : field ∈ fieldNames)
    (nodup : (Fields.names fields).Nodup) {v : Json} (found : Fields.get? field fields = some v)
    (h : ofFields? (Json.writtenFields fields) seen s = some s') :
    ∃ before after, assign field v.written (partOf v) before = some after ∧
      get before = get s ∧ get s' = get after := by
  induction fields generalizing seen s with
  | nil => cases found
  | cons first rest ih =>
    obtain ⟨name, w⟩ := first
    obtain ⟨fresh, others⟩ := List.nodup_cons.mp nodup
    by_cases same : name = field
    · subst same
      rw [Fields.get?, if_pos rfl] at found
      obtain rfl := Option.some.inj found
      rcases ofFields?_cons h with ⟨unknown, -⟩ | ⟨middle, read, rest⟩
      · exact absurd known unknown
      · exact ⟨s, middle, read, rfl, get_of_absent kept fresh rest⟩
    · rw [Fields.get?, if_neg same] at found
      rcases ofFields?_cons h with ⟨-, rest⟩ | ⟨middle, read, rest⟩
      · exact ih others found rest
      · obtain ⟨before, after, assigned, start, ending⟩ := ih others found rest
        exact ⟨before, after, assigned, start.trans (kept _ _ _ _ _ same read), ending⟩

lemma strings_of_asTexts? {items : List Json} {names : List String}
    (h : (Json.writtenItems items).mapM Json.Written.asText? = some names) :
    items = names.map .string := by
  induction items generalizing names with
  | nil =>
    obtain rfl := Option.some.inj h
    rfl
  | cons item items ih =>
    rw [Json.writtenItems, List.mapM_cons] at h
    obtain ⟨name, first, h⟩ := Option.bind_eq_some_iff.mp h
    obtain ⟨more, rest, same⟩ := Option.bind_eq_some_iff.mp h
    obtain rfl := Option.some.inj same
    have text : item = .string name := by
      cases item with
      | string text => exact congrArg _ (Option.some.inj first)
      | _ => cases first
    rw [text, ih rest, List.map_cons]

/-- Required names are read of a list of texts. -/
lemma required_of_read (nodup : (Fields.names fields).Nodup)
    (h : ofFields? (Json.writtenFields fields) [] {} = some s) {names : List String}
    (is : s.required = some names) :
    Fields.get? "required" fields = some (.array (names.map .string)) := by
  cases found : Fields.get? "required" fields with
  | none =>
    rw [get_of_absent keptBy_required (Fields.get?_eq_none.mp found) h] at is
    cases is
  | some v =>
    obtain ⟨before, after, read, start, ending⟩ :=
      get_of_present keptBy_required (by simp [fieldNames]) nodup found h
    rw [is] at ending
    cases v with
    | null =>
      obtain rfl := Option.some.inj read
      rw [start] at ending
      cases ending
    | array items =>
      obtain ⟨texts, all, rfl⟩ := Option.map_eq_some_iff.mp read
      obtain rfl := Option.some.inj ending
      rw [strings_of_asTexts? all]
    | _ => cases read

/-- Several types are read of a list of texts. -/
lemma types_of_read (nodup : (Fields.names fields).Nodup)
    (h : ofFields? (Json.writtenFields fields) [] {} = some s) {names : List String}
    (is : s.typeNames = some (.many names)) :
    Fields.get? "type" fields = some (.array (names.map .string)) := by
  cases found : Fields.get? "type" fields with
  | none =>
    rw [get_of_absent keptBy_typeNames (Fields.get?_eq_none.mp found) h] at is
    cases is
  | some v =>
    obtain ⟨before, after, read, start, ending⟩ :=
      get_of_present keptBy_typeNames (by simp [fieldNames]) nodup found h
    rw [is] at ending
    cases v with
    | null =>
      obtain rfl := Option.some.inj read
      rw [start] at ending
      cases ending
    | string text =>
      obtain rfl := Option.some.inj read
      cases ending
    | array items =>
      obtain ⟨t, listed, rfl⟩ := Option.map_eq_some_iff.mp read
      obtain ⟨texts, all, rfl⟩ := Option.map_eq_some_iff.mp listed
      obtain rfl := TypeNames.many.inj (Option.some.inj ending)
      rw [strings_of_asTexts? all]
    | _ => cases read

lemma names_of_pairsOf? {fields : Fields Json} {pairs : List (String × SchemaObject)}
    (h : pairsOf? (Json.writtenFields fields) = some pairs) :
    Fields.names pairs = Fields.names fields := by
  induction fields generalizing pairs with
  | nil =>
    obtain rfl := Option.some.inj h
    rfl
  | cons field rest ih =>
    obtain ⟨name, v⟩ := field
    rw [Json.writtenFields, pairsOf?] at h
    obtain ⟨name', same, h⟩ := Option.bind_eq_some_iff.mp h
    obtain rfl := Option.some.inj same
    obtain ⟨s, -, h⟩ := Option.bind_eq_some_iff.mp h
    obtain ⟨more, later, same⟩ := Option.bind_eq_some_iff.mp h
    obtain rfl := Option.some.inj same
    exact congrArg (name :: ·) (ih later)

/-- Properties are read of an object, each name once. -/
lemma properties_of_read (nodup : (Fields.names fields).Nodup)
    (h : ofFields? (Json.writtenFields fields) [] {} = some s) :
    (Fields.names (s.properties.getD [])).Nodup ∧
      ∀ name, name ∈ Fields.names (propertiesIn fields) →
        name ∈ Fields.names (s.properties.getD []) := by
  rw [propertiesIn]
  cases found : Fields.get? "properties" fields with
  | none =>
    have is := get_of_absent keptBy_properties (Fields.get?_eq_none.mp found) h
    rw [is]
    exact ⟨List.nodup_nil, fun name mem => mem⟩
  | some v =>
    obtain ⟨before, after, read, start, ending⟩ :=
      get_of_present keptBy_properties (by simp [fieldNames]) nodup found h
    rw [ending]
    cases v with
    | null =>
      obtain rfl := Option.some.inj read
      rw [start]
      exact ⟨List.nodup_nil, fun name mem => mem⟩
    | object properties =>
      obtain ⟨ps, all, rfl⟩ := Option.map_eq_some_iff.mp read
      obtain ⟨pairs, listed, rfl⟩ := Option.map_eq_some_iff.mp all
      refine ⟨Fields.names_ofPairs_nodup pairs, ?_⟩
      intro name mem
      rw [← names_of_pairsOf? listed] at mem
      exact Fields.mem_names_ofPairs.mpr mem
    | _ => cases read

/-- What is read of the fields of a schema object that is well formed by itself. -/
lemma formed_of_read (formed : FormedFields strict fields)
    (h : ofFields? (Json.writtenFields fields) [] {} = some s) : s.Formed strict := by
  obtain ⟨keys, declared⟩ := properties_of_read formed.nodup h
  refine ⟨?_, ?_, fun _ => keys, ?_⟩
  · intro yes target is
    cases found : Fields.get? "$ref" fields with
    | none =>
      rw [get_of_absent keptBy_reference (Fields.get?_eq_none.mp found) h] at is
      cases is
    | some v =>
      obtain rfl := formed.alone yes v found
      rcases ofFields?_cons h with ⟨unknown, -⟩ | ⟨middle, read, rest⟩
      · exact absurd (by simp [fieldNames]) unknown
      · obtain rfl := Option.some.inj rest
        cases v with
        | null =>
          obtain rfl := Option.some.inj read
          cases is
        | string text =>
          obtain rfl := Option.some.inj read
          obtain rfl := Option.some.inj is
          rfl
        | _ => cases read
  · intro yes t is
    cases t with
    | one name => exact List.nodup_singleton name
    | many names =>
      exact (formed.types yes _ (types_of_read formed.nodup h is)).of_map _
  · intro name mem
    cases is : s.required with
    | none =>
      rw [is] at mem
      cases mem
    | some names =>
      rw [is] at mem
      have found := required_of_read formed.nodup h is
      obtain ⟨name', inside, same⟩ := formed.required _ found _ (List.mem_map_of_mem mem)
      obtain rfl := Json.string.inj same
      exact declared name inside

end Fields

mutual

/-- What is read of a value that is well formed at every depth. -/
lemma ofWritten?_formed : ∀ (v : Json), FormedAt strict .nested v → ∀ {s : SchemaObject},
    ofWritten? v.written = some s → s.Throughout (Formed strict)
  | .object fields, formed, s, h => by
    cases formed with
    | schema here each =>
      rw [Json.written, ofWritten?] at h
      refine .mk (formed_of_read here h) ?_
      intro part mem
      exact ofFields?_formed fields each (s := {}) (fun part mem => by cases mem) h part mem
  | .array items, formed, s, h => by
    cases formed with
    | list each =>
      rw [ofWritten?_array_eq_none] at h
      · cases h
      · intro v mem
        have := each v (List.mem_of_head? mem)
        cases this <;> simp
  | .bool b, _, _, h => by cases h
  | .null, _, _, h => by cases h
  | .number _, _, _, h => by cases h
  | .string _, _, _, h => by cases h
termination_by structural v => v

lemma schemasOf?_formed : ∀ (v : Json), FormedAt strict .nested v → ∀ {schemas},
    schemasOf? v.written = some schemas → ∀ s ∈ schemas, s.Throughout (Formed strict)
  | .array items, formed, schemas, h => by
    cases formed with
    | list each => exact listOf?_formed items each h
  | .object _, _, _, h => by cases h
  | .bool b, _, _, h => by cases h
  | .null, _, _, h => by cases h
  | .number _, _, _, h => by cases h
  | .string _, _, _, h => by cases h
termination_by structural v => v

lemma propertiesOf?_formed : ∀ (v : Json), FormedAt strict .properties v → ∀ {properties},
    propertiesOf? v.written = some properties →
    ∀ property ∈ properties, property.2.Throughout (Formed strict)
  | .object fields, formed, properties, h => by
    cases formed with
    | properties each =>
      obtain ⟨pairs, read, rfl⟩ := Option.map_eq_some_iff.mp h
      intro property mem
      exact pairsOf?_formed fields each read property (Fields.mem_of_mem_ofPairs mem)
  | .array _, _, _, h => by cases h
  | .bool b, _, _, h => by cases h
  | .null, _, _, h => by cases h
  | .number _, _, _, h => by cases h
  | .string _, _, _, h => by cases h
termination_by structural v => v

lemma ofFields?_formed : ∀ (fields : List (String × Json)), FormedEach strict fields →
    ∀ {seen : List String} {s s' : SchemaObject},
    (∀ part ∈ s.parts, part.Throughout (Formed strict)) →
    ofFields? (Json.writtenFields fields) seen s = some s' →
    ∀ part ∈ s'.parts, part.Throughout (Formed strict)
  | [], _, _, _, _, parts, h => by
    obtain rfl := Option.some.inj h
    exact parts
  | (name, v) :: rest, formed, _, s, s', parts, h => by
    have head : FormedAt strict (Slot.ofField name) v := formed _ List.mem_cons_self
    have tail : FormedEach strict rest := fun field mem => formed field (List.mem_cons_of_mem _ mem)
    rcases ofFields?_cons h with ⟨-, h⟩ | ⟨middle, read, h⟩
    · exact ofFields?_formed rest tail parts h
    · refine ofFields?_formed rest tail ?_ h
      intro part mem
      rcases parts_of_assign read mem with old | ⟨place, properties, inside, new⟩ |
        ⟨place, inside | ⟨schemas, inside, new⟩⟩
      · exact parts part old
      · obtain ⟨property, here, rfl⟩ := List.mem_map.mp new
        exact propertiesOf?_formed v (place ▸ head) inside property here
      · exact ofWritten?_formed v (place ▸ head) inside
      · exact schemasOf?_formed v (place ▸ head) inside part new
termination_by structural fields => fields

lemma listOf?_formed : ∀ (items : List Json), (∀ item ∈ items, FormedAt strict .nested item) →
    ∀ {schemas}, listOf? (Json.writtenItems items) = some schemas →
    ∀ s ∈ schemas, s.Throughout (Formed strict)
  | [], _, _, h => by
    obtain rfl := Option.some.inj h
    exact fun _ mem => absurd mem List.not_mem_nil
  | v :: rest, formed, schemas, h => by
    have tail := fun item mem => formed item (List.mem_cons_of_mem v mem)
    rw [Json.writtenItems, listOf?] at h
    obtain ⟨first, read, h⟩ := Option.bind_eq_some_iff.mp h
    obtain ⟨more, others, same⟩ := Option.bind_eq_some_iff.mp h
    obtain rfl := Option.some.inj same
    intro s mem
    rcases List.mem_cons.mp mem with rfl | mem
    · exact ofWritten?_formed v (formed v List.mem_cons_self) read
    · exact listOf?_formed rest tail others s mem
termination_by structural items => items

lemma pairsOf?_formed : ∀ (fields : List (String × Json)),
    (∀ field ∈ fields, FormedAt strict .nested field.2) →
    ∀ {pairs}, pairsOf? (Json.writtenFields fields) = some pairs →
    ∀ pair ∈ pairs, pair.2.Throughout (Formed strict)
  | [], _, _, h => by
    obtain rfl := Option.some.inj h
    exact fun _ mem => absurd mem List.not_mem_nil
  | (name, v) :: rest, formed, pairs, h => by
    have head : FormedAt strict .nested v := formed (name, v) List.mem_cons_self
    have tail := fun field mem => formed field (List.mem_cons_of_mem (name, v) mem)
    rw [Json.writtenFields, pairsOf?] at h
    obtain ⟨name', -, h⟩ := Option.bind_eq_some_iff.mp h
    obtain ⟨first, read, h⟩ := Option.bind_eq_some_iff.mp h
    obtain ⟨more, others, same⟩ := Option.bind_eq_some_iff.mp h
    obtain rfl := Option.some.inj same
    intro pair mem
    rcases List.mem_cons.mp mem with rfl | mem
    · exact ofWritten?_formed v head read
    · exact pairsOf?_formed rest tail others pair mem
termination_by structural fields => fields

end

end SchemaObject

end EventContracts
