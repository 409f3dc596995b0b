import EventContracts.Proofs.FlattenedObjects

/-! Which requirements of a schema object a value keeps, at every depth, and what becomes of them
when schema objects are put together. Merging two schemas as values puts their required names one
after the other and goes on with the properties and items of both, so what is read back asks for
what both of them ask for. -/

namespace EventContracts

namespace SchemaObject

/-- Whether a value has what a schema requires, and so have its parts. -/
inductive Kept : SchemaObject → Json → Prop where
  | mk {s : SchemaObject} {v : Json}
      (required : ∀ fields, v = .object fields →
        ∀ name ∈ s.required.getD [], name ∈ Fields.names fields)
      (parts : ∀ part ∈ s.demands v, Kept part.1 part.2)
      (members : ∀ member ∈ s.allOf.getD [], Kept member v) : Kept s v

variable {s p q : SchemaObject} {v : Json}

lemma kept_mk : s.Kept v ↔
    (∀ fields, v = .object fields → ∀ name ∈ s.required.getD [], name ∈ Fields.names fields) ∧
      (∀ part ∈ s.demands v, part.1.Kept part.2) ∧
      ∀ member ∈ s.allOf.getD [], member.Kept v :=
  ⟨fun ⟨required, parts, members⟩ => ⟨required, parts, members⟩,
    fun ⟨required, parts, members⟩ => ⟨required, parts, members⟩⟩

lemma propertyDemands_reread (properties : List (String × SchemaObject)) (fields : Fields Json) :
    propertyDemands (rereadProperties properties) fields =
      (propertyDemands properties fields).map fun part => (part.1.reread, part.2) := by
  rw [rereadProperties_eq_mapValues, propertyDemands, propertyDemands, Fields.mapValues,
    List.filterMap_map, List.map_filterMap]
  refine List.filterMap_congr fun property _ => ?_
  rw [Option.map_map]
  rfl

lemma furtherDemands_reread (further : Option (Further SchemaObject)) (values : List Json) :
    furtherDemands (rereadFurther? further) values =
      (furtherDemands further values).map fun part => (part.1.reread, part.2) := by
  rcases further with _ | _ | t
  · rfl
  · rfl
  · simp [furtherDemands, rereadFurther?]

lemma demands_reread (s : SchemaObject) (v : Json) :
    s.reread.demands v = (s.demands v).map fun part => (part.1.reread, part.2) := by
  obtain ⟨_, _, _, _, properties, _, further, items, furtherItems⟩ := s
  cases v with
  | object fields =>
    change propertyDemands ((rereadProperties? properties).getD []) fields ++
        furtherDemands (rereadFurther? further) _ =
      (propertyDemands (properties.getD []) fields ++ furtherDemands further _).map _
    rw [List.map_append, furtherDemands_reread]
    cases properties with
    | none => rfl
    | some properties => rw [← propertyDemands_reread]; rfl
  | array values =>
    rcases items with _ | schemas | t
    · rfl
    · change (rereadList schemas).zip values ++
          furtherDemands (rereadFurther? furtherItems) (values.drop (rereadList schemas).length) =
        (schemas.zip values ++ furtherDemands furtherItems (values.drop schemas.length)).map _
      rw [List.map_append, ← furtherDemands_reread, rereadList_eq_map, List.length_map,
        List.zip_map_left]
      rfl
    · change values.map _ = (values.map _).map _
      rw [List.map_map]
      rfl
  | _ => rfl

lemma required_reread (s : SchemaObject) : s.reread.required = s.required := by
  cases s
  rfl

lemma allOf_reread (s : SchemaObject) : s.reread.allOf.getD [] = (s.allOf.getD []).map reread := by
  obtain ⟨_, _, _, _, _, _, _, _, _, _, _, allOf⟩ := s
  change (rereadSchemas? allOf).getD [] = _
  cases allOf with
  | none => rfl
  | some members => exact rereadList_eq_map members

/-- Reading back loses nothing that is required. -/
lemma kept_reread : s.reread.Kept v ↔ s.Kept v := by
  constructor
  · intro kept
    generalize is : s.reread = t at kept
    induction kept generalizing s with
    | @mk t v required parts members ihParts ihMembers =>
      subst is
      rw [required_reread] at required
      refine .mk required (fun part mem => ?_) fun member mem => ?_
      · refine ihParts (part.1.reread, part.2) ?_ rfl
        rw [demands_reread]
        exact List.mem_map_of_mem mem
      · refine ihMembers member.reread ?_ rfl
        rw [allOf_reread]
        exact List.mem_map_of_mem mem
  · intro kept
    induction kept with
    | @mk s v required parts members ihParts ihMembers =>
      refine .mk (by rwa [required_reread]) (fun part mem => ?_) fun member mem => ?_
      · rw [demands_reread] at mem
        obtain ⟨part, inside, rfl⟩ := List.mem_map.mp mem
        exact ihParts part inside
      · rw [allOf_reread] at mem
        obtain ⟨member, inside, rfl⟩ := List.mem_map.mp mem
        exact ihMembers member inside

/-- Whether what a schema asks of parts is said by its properties and by one schema of items. -/
structure Tree (s : SchemaObject) : Prop where
  itself : s.reference = none
  further : s.additionalProperties = none
  items : ∀ schemas, s.items ≠ some (.positional schemas)
  allOf : s.allOf = none

/-- Whether fields keep what the properties of their names require. -/
def PropertiesKept (properties : List (String × SchemaObject)) (fields : Fields Json) : Prop :=
  ∀ name t, Fields.get? name properties = some t →
    ∀ w, Fields.get? name fields = some w → t.Kept w

/-- Whether values keep what the schema of items requires, if there is one. -/
def ItemsKept (items : Option (Items SchemaObject)) (values : List Json) : Prop :=
  ∀ t, items = some (.each t) → ∀ w ∈ values, t.Kept w

lemma kept_iff_of_tree (tree : s.Tree) (nodup : (Fields.names (s.properties.getD [])).Nodup) :
    s.Kept v ↔
      (∀ fields, v = .object fields → (∀ name ∈ s.required.getD [], name ∈ Fields.names fields) ∧
        PropertiesKept (s.properties.getD []) fields) ∧
      ∀ values, v = .array values → ItemsKept s.items values := by
  rw [kept_mk, tree.allOf]
  constructor
  · rintro ⟨required, parts, -⟩
    refine ⟨?_, ?_⟩
    · rintro fields rfl
      refine ⟨required fields rfl, fun name t found w present => ?_⟩
      refine parts (t, w) (List.mem_append_left _ (List.mem_filterMap.mpr
        ⟨(name, t), Fields.mem_of_get? found, ?_⟩))
      rw [present]
      rfl
    · rintro values rfl t is w mem
      refine parts (t, w) ?_
      rw [demands, is]
      exact List.mem_map_of_mem mem
  · rintro ⟨fields, values⟩
    refine ⟨fun others is => (fields others is).1, fun part mem => ?_, List.forall_mem_nil _⟩
    cases v with
    | object others =>
      change part ∈ propertyDemands _ others ++ furtherDemands s.additionalProperties _ at mem
      rw [tree.further] at mem
      change part ∈ propertyDemands _ others ++ [] at mem
      rw [List.append_nil] at mem
      obtain ⟨name, inside, present⟩ := mem_propertyDemands mem
      exact (fields others rfl).2 name _ (Fields.get?_of_mem nodup inside) _ present
    | array others =>
      rw [demands] at mem
      split at mem
      · rename_i t is
        obtain ⟨w, inside, rfl⟩ := List.mem_map.mp mem
        exact values others rfl t is w inside
      · rename_i schemas is
        exact absurd is (tree.items schemas)
      · cases mem
    | _ => cases mem

/-- What a schema asks for is what two others ask for when this is so for names, for properties and
for items. -/
lemma kept_iff_both (tree : s.Tree) (nodup : (Fields.names (s.properties.getD [])).Nodup)
    (treeLeft : p.Tree) (nodupLeft : (Fields.names (p.properties.getD [])).Nodup)
    (treeRight : q.Tree) (nodupRight : (Fields.names (q.properties.getD [])).Nodup)
    (needed : ∀ fields : Fields Json, (∀ name ∈ s.required.getD [], name ∈ Fields.names fields) ↔
      (∀ name ∈ p.required.getD [], name ∈ Fields.names fields) ∧
        ∀ name ∈ q.required.getD [], name ∈ Fields.names fields)
    (declared : ∀ fields, PropertiesKept (s.properties.getD []) fields ↔
      PropertiesKept (p.properties.getD []) fields ∧ PropertiesKept (q.properties.getD []) fields)
    (listed : ∀ values, ItemsKept s.items values ↔
      ItemsKept p.items values ∧ ItemsKept q.items values) :
    s.Kept v ↔ p.Kept v ∧ q.Kept v := by
  rw [kept_iff_of_tree tree nodup, kept_iff_of_tree treeLeft nodupLeft,
    kept_iff_of_tree treeRight nodupRight]
  constructor
  · rintro ⟨ofFields, ofValues⟩
    refine ⟨⟨fun fields is => ?_, fun values is => ?_⟩, fun fields is => ?_, fun values is => ?_⟩
    · exact ⟨((needed fields).mp (ofFields fields is).1).1,
        ((declared fields).mp (ofFields fields is).2).1⟩
    · exact ((listed values).mp (ofValues values is)).1
    · exact ⟨((needed fields).mp (ofFields fields is).1).2,
        ((declared fields).mp (ofFields fields is).2).2⟩
    · exact ((listed values).mp (ofValues values is)).2
  · rintro ⟨⟨ofFields, ofValues⟩, ofFields', ofValues'⟩
    refine ⟨fun fields is => ?_, fun values is => ?_⟩
    · exact ⟨(needed fields).mpr ⟨(ofFields fields is).1, (ofFields' fields is).1⟩,
        (declared fields).mpr ⟨(ofFields fields is).2, (ofFields' fields is).2⟩⟩
    · exact (listed values).mpr ⟨ofValues values is, ofValues' values is⟩

/-- Whether what is read of two schemas merged as values asks for what both of them ask for. -/
def Merges (p q : SchemaObject) : Prop :=
  ∀ m s, Json.mergeDeep p.toJson q.toJson = some m → ofWritten? m.written = some s →
    ∀ w, s.Kept w ↔ p.Kept w ∧ q.Kept w

open Json in
/-- What a value asks for that is merged of two schemas, if they are there. -/
lemma kept_combined {a b : Option SchemaObject} {j : Json} {t : SchemaObject}
    (fromLeft : ∀ p ∈ a, p.Throughout Keyed) (fromRight : ∀ q ∈ b, q.Throughout Keyed)
    (both : ∀ p ∈ a, ∀ q ∈ b, p.Merges q)
    (combined : Combined (a.map toJson) (b.map toJson) (some j))
    (read : ofWritten? j.written = some t) (w : Json) :
    t.Kept w ↔ (∀ p ∈ a, p.Kept w) ∧ ∀ q ∈ b, q.Kept w := by
  have single {p : SchemaObject} (keyed : p.Throughout Keyed) (same : j = p.toJson) :
      t.Kept w ↔ p.Kept w := by
    subst same
    rw [Option.some.inj (read.symm.trans (readsBack keyed)), kept_reread]
  cases a with
  | none =>
    cases b with
    | none => cases combined
    | some q =>
      cases combined
      rw [single (fromRight q rfl) rfl]
      simp
  | some p =>
    cases b with
    | none =>
      cases combined
      rw [single (fromLeft p rfl) rfl]
      simp
    | some q =>
      cases combined with
      | both merged =>
        rw [both p rfl q rfl _ _ merged read]
        simp

lemma get?_fieldsOfProperties (name : String) (properties : List (String × SchemaObject)) :
    Fields.get? name (fieldsOfProperties properties) =
      (Fields.get? name properties).map toJson := by
  induction properties with
  | nil => rfl
  | cons property rest ih =>
    obtain ⟨key, s⟩ := property
    rw [fieldsOfProperties, Fields.get?, Fields.get?]
    split
    · rfl
    · exact ih

/-- What is read under a name is read of the value under the name. -/
lemma get?_pairsOf? {fields : Fields Json} {pairs : List (String × SchemaObject)}
    (read : pairsOf? (Json.writtenFields fields) = some pairs) {name : String} {j : Json}
    (found : Fields.get? name fields = some j) :
    ∃ t, Fields.get? name pairs = some t ∧ ofWritten? j.written = some t := by
  induction fields generalizing pairs with
  | nil => cases found
  | cons field rest ih =>
    obtain ⟨key, other⟩ := field
    rw [Json.writtenFields, pairsOf?] at read
    obtain ⟨key', same, read⟩ := Option.bind_eq_some_iff.mp read
    obtain rfl := Option.some.inj same
    obtain ⟨s, first, read⟩ := Option.bind_eq_some_iff.mp read
    obtain ⟨more, later, same⟩ := Option.bind_eq_some_iff.mp read
    obtain rfl := Option.some.inj same
    rw [Fields.get?] at found ⊢
    by_cases here : key = name
    · rw [if_pos here] at found ⊢
      obtain rfl := Option.some.inj found
      exact ⟨s, rfl, first⟩
    · rw [if_neg here] at found ⊢
      exact ih later found

/-- What is asked of the fields of merged properties. Under each name stands what is merged of the
schemas that have the name on either side. -/
lemma kept_mergeProperties? {left right merged : List (String × SchemaObject)}
    (fromLeft : ∀ p ∈ left.map Prod.snd, p.Throughout Keyed)
    (fromRight : ∀ q ∈ right.map Prod.snd, q.Throughout Keyed)
    (nodupLeft : (Fields.names left).Nodup) (nodupRight : (Fields.names right).Nodup)
    (both : ∀ p ∈ left.map Prod.snd, ∀ q ∈ right.map Prod.snd, p.Merges q)
    (h : mergeProperties? left right = some merged) (fields : Fields Json) :
    PropertiesKept merged fields ↔ PropertiesKept left fields ∧ PropertiesKept right fields := by
  obtain ⟨values, made, h⟩ := Option.bind_eq_some_iff.mp h
  obtain ⟨pairs, read, same⟩ := Option.bind_eq_some_iff.mp h
  obtain rfl := Option.some.inj same
  have distinct : (Fields.names pairs).Nodup := by
    rw [names_of_pairsOf? read]
    refine Json.names_mergeFields_nodup ?_ made
    rwa [names_fieldsOfProperties]
  have apart : (Fields.names (fieldsOfProperties right)).Nodup := by
    rwa [names_fieldsOfProperties]
  rw [Fields.ofPairs_of_nodup distinct]
  have member {properties : List (String × SchemaObject)} {name : String} {t : SchemaObject}
      (mem : t ∈ Fields.get? name properties) : t ∈ properties.map Prod.snd :=
    List.mem_map_of_mem (Fields.mem_of_get? mem)
  have each (name : String) (w : Json) : (∀ t ∈ Fields.get? name pairs, t.Kept w) ↔
      (∀ p ∈ Fields.get? name left, p.Kept w) ∧ ∀ q ∈ Fields.get? name right, q.Kept w := by
    have combined := Json.combined_of_mergeFields apart made name
    rw [get?_fieldsOfProperties, get?_fieldsOfProperties] at combined
    cases found : Fields.get? name values with
    | none =>
      rw [found] at combined
      have nowhere : Fields.get? name pairs = none := by
        rw [Fields.get?_eq_none, names_of_pairsOf? read, ← Fields.get?_eq_none, found]
      rw [nowhere]
      cases l : Fields.get? name left <;> cases r : Fields.get? name right <;>
        rw [l, r] at combined <;> cases combined
      simp
    | some j =>
      obtain ⟨t, here, readAt⟩ := get?_pairsOf? read found
      rw [found] at combined
      have one := kept_combined (fun p mem => fromLeft p (member mem))
        (fun q mem => fromRight q (member mem))
        (fun p mem q mem' => both p (member mem) q (member mem')) combined readAt w
      rw [← one, here]
      simp
  constructor
  · intro kept
    exact ⟨fun name p found w present =>
        ((each name w).mp fun t here => kept name t here w present).1 p found,
      fun name q found w present =>
        ((each name w).mp fun t here => kept name t here w present).2 q found⟩
  · rintro ⟨keptLeft, keptRight⟩ name t here w present
    exact (each name w).mpr ⟨fun p found => keptLeft name p found w present,
      fun q found => keptRight name q found w present⟩ t here

/-- Fields of schemas change nothing but themselves. -/
lemma assign_keeps_parts {name : String} {w : Json.Written} {part : Part} {s s' : SchemaObject}
    (h : assign name w part s = some s') :
    (name ≠ "items" → s'.items = s.items) ∧
      (name ≠ "additionalProperties" → s'.additionalProperties = s.additionalProperties) ∧
      (name ≠ "allOf" → s'.allOf = s.allOf) := by
  unfold assign at h
  split at h
  · obtain rfl := Option.some.inj h
    exact ⟨fun _ => rfl, fun _ => rfl, fun _ => rfl⟩
  · split at h
    all_goals first
      | obtain ⟨x, -, rfl⟩ := Option.map_eq_some_iff.mp h
        exact ⟨fun other => by first | rfl | exact absurd rfl other,
          fun other => by first | rfl | exact absurd rfl other,
          fun other => by first | rfl | exact absurd rfl other⟩
      | obtain rfl := Option.some.inj h
        exact ⟨fun _ => rfl, fun _ => rfl, fun _ => rfl⟩

lemma keptBy_items : KeptBy "items" items :=
  fun _ _ _ _ _ other h => (assign_keeps_parts h).1 other

lemma keptBy_additionalProperties : KeptBy "additionalProperties" additionalProperties :=
  fun _ _ _ _ _ other h => (assign_keeps_parts h).2.1 other

lemma keptBy_allOf : KeptBy "allOf" allOf :=
  fun _ _ _ _ _ other h => (assign_keeps_parts h).2.2 other

lemma get?_toFields_parts (s : SchemaObject) :
    Fields.get? "items" s.toFields = ofItems? s.items ∧
      Fields.get? "additionalProperties" s.toFields = ofFurther? s.additionalProperties ∧
      Fields.get? "allOf" s.toFields = ofSchemas? s.allOf := by
  obtain ⟨⟩ := s
  rw [toFields]
  refine ⟨?_, ?_, ?_⟩
  all_goals
    rw [get?_present (by simp [Fields.names])]
    rfl

section Combined

open Json

variable {fields : Fields Json}

/-- Required names of both sides are put one after the other. -/
lemma required_combined {a b : Option (List String)} (nodup : (Fields.names fields).Nodup)
    (read : ofFields? (writtenFields fields) [] {} = some s)
    (combined : Combined (a.map strings) (b.map strings) (Fields.get? "required" fields)) :
    s.required.getD [] = a.getD [] ++ b.getD [] := by
  have present {names : List String}
      (found : Fields.get? "required" fields = some (strings names)) :
      s.required = some names := by
    obtain ⟨before, after, assigned, -, ending⟩ :=
      get_of_present keptBy_required (by simp [fieldNames]) nodup found read
    change ((strings names).written.asTexts?.map fun x => { before with required := some x }) =
      some after at assigned
    rw [Assigns.asTexts?_strings] at assigned
    obtain rfl := Option.some.inj assigned
    exact ending
  cases a with
  | none =>
    cases b with
    | none =>
      have absent := combined.of_absent
      rw [get_of_absent keptBy_required (Fields.get?_eq_none.mp absent) read]
      rfl
    | some names =>
      generalize found : Fields.get? "required" fields = c at combined
      cases combined
      rw [present found]
      rfl
  | some names =>
    cases b with
    | none =>
      rw [present combined.of_absent]
      exact (List.append_nil _).symm
    | some others =>
      generalize found : Fields.get? "required" fields = c at combined
      cases combined with
      | both merged =>
        obtain rfl := Option.some.inj merged
        rw [← List.map_append] at found
        rw [present found]
        rfl

/-- The properties of both sides are merged as those of flattened objects are. -/
lemma properties_combined {a b : Option (List (String × SchemaObject))}
    (nodup : (Fields.names fields).Nodup) (apart : (Fields.names (b.getD [])).Nodup)
    (read : ofFields? (writtenFields fields) [] {} = some s)
    (combined : Combined (ofProperties? a) (ofProperties? b)
      (Fields.get? "properties" fields)) :
    mergeProperties? (a.getD []) (b.getD []) = some (s.properties.getD []) := by
  have present {others : Fields Json}
      (found : Fields.get? "properties" fields = some (.object others))
      (made : mergeFields (fieldsOfProperties (a.getD [])) (fieldsOfProperties (b.getD [])) =
        some others) : mergeProperties? (a.getD []) (b.getD []) = some (s.properties.getD []) := by
    obtain ⟨before, after, assigned, -, ending⟩ :=
      get_of_present keptBy_properties (by simp [fieldNames]) nodup found read
    obtain ⟨ps, all, rfl⟩ := Option.map_eq_some_iff.mp assigned
    obtain ⟨pairs, listed, rfl⟩ := Option.map_eq_some_iff.mp all
    rw [mergeProperties?, made, ending]
    change (pairsOf? (writtenFields others)).bind _ = _
    rw [listed]
    rfl
  cases a with
  | none =>
    cases b with
    | none =>
      rw [get_of_absent keptBy_properties (Fields.get?_eq_none.mp combined.of_absent) read]
      rfl
    | some right =>
      rw [ofProperties?, ofProperties?] at combined
      generalize found : Fields.get? "properties" fields = c at combined
      cases combined
      have nothing : (Fields.names ([] ++ fieldsOfProperties right)).Nodup := by
        rw [List.nil_append, names_fieldsOfProperties]
        exact apart
      exact present found (mergeFields_of_disjoint nothing)
  | some left =>
    cases b with
    | none => exact present combined.of_absent rfl
    | some right =>
      rw [ofProperties?, ofProperties?] at combined
      generalize found : Fields.get? "properties" fields = c at combined
      cases combined with
      | both merged =>
        obtain ⟨_, others, same, rfl, made⟩ := mergeDeep_object merged
        obtain rfl := Json.object.inj same
        exact present found made

/-- The schema of all items, if there is one. -/
def single? : Option (Items SchemaObject) → Option SchemaObject
  | some (.each t) => some t
  | _ => none

lemma itemsKept_iff {items : Option (Items SchemaObject)} {values : List Json} :
    ItemsKept items values ↔ ∀ w ∈ values, ∀ t ∈ single? items, t.Kept w := by
  rcases items with _ | _ | t <;> simp [ItemsKept, single?]

lemma mem_parts_single {t : SchemaObject} (mem : t ∈ single? s.items) : t ∈ s.parts := by
  refine mem_parts.mpr (.inr (.inr (.inl ?_)))
  generalize s.items = items at mem
  rcases items with _ | schemas | u
  · cases mem
  · cases mem
  · obtain rfl := Option.some.inj mem
    exact List.mem_singleton_self _

lemma ofItems?_eq {items : Option (Items SchemaObject)}
    (alike : ∀ schemas, items ≠ some (.positional schemas)) :
    ofItems? items = (single? items).map toJson := by
  rcases items with _ | schemas | t
  · rfl
  · exact absurd rfl (alike schemas)
  · rfl

lemma object_of_combined {a b : Option SchemaObject} {j : Json}
    (combined : Combined (a.map toJson) (b.map toJson) (some j)) :
    ∃ others, j = .object others := by
  cases a with
  | none =>
    cases b with
    | none => cases combined
    | some q =>
      cases combined
      exact ⟨_, rfl⟩
  | some p =>
    cases b with
    | none =>
      cases combined
      exact ⟨_, rfl⟩
    | some q =>
      cases combined with
      | both merged =>
        obtain ⟨_, others, -, same, -⟩ := mergeDeep_object merged
        exact ⟨others, same⟩

/-- What is read of the schema of items: there is one when one of the sides has one. -/
lemma items_combined {a b : Option SchemaObject} (nodup : (Fields.names fields).Nodup)
    (read : ofFields? (writtenFields fields) [] {} = some s)
    (combined : Combined (a.map toJson) (b.map toJson) (Fields.get? "items" fields)) :
    (a = none ∧ b = none ∧ s.items = none) ∨ ∃ j t,
      Combined (a.map toJson) (b.map toJson) (some j) ∧ ofWritten? j.written = some t ∧
        s.items = some (.each t) := by
  cases found : Fields.get? "items" fields with
  | none =>
    rw [found] at combined
    have absent := get_of_absent keptBy_items (Fields.get?_eq_none.mp found) read
    cases a <;> cases b <;> cases combined
    exact .inl ⟨rfl, rfl, absent⟩
  | some j =>
    rw [found] at combined
    obtain ⟨others, rfl⟩ := object_of_combined combined
    obtain ⟨before, after, assigned, -, ending⟩ :=
      get_of_present keptBy_items (by simp [fieldNames]) nodup found read
    obtain ⟨x, several, rfl⟩ := Option.map_eq_some_iff.mp assigned
    have none : (partOf (.object others)).schemas () = none := rfl
    rw [items?, if_pos (value?_written _), none] at several
    obtain ⟨t, here, rfl⟩ := Option.map_eq_some_iff.mp several
    exact .inr ⟨_, t, combined, here, ending⟩

end Combined

/-- What is read of two schemas merged as values asks for what both of them ask for. The induction
is on the first schema, through its properties and its items. -/
lemma merges (keyed : p.Throughout Keyed) (tree : p.Throughout Tree) (keyed' : q.Throughout Keyed)
    (tree' : q.Throughout Tree) : p.Merges q := by
  induction keyed generalizing q with
  | @mk p here parts ih =>
    intro m s merged read w
    obtain ⟨_, fields, same, rfl, made⟩ := Json.mergeDeep_object merged
    obtain rfl := Json.object.inj same
    have nodup := Json.names_mergeFields_nodup (names_toFields_nodup p) made
    have combined := Json.combined_of_mergeFields (names_toFields_nodup q) made
    have keyedRead := keyed_of_ofWritten? _ read
    rw [Json.written, ofWritten?] at read
    obtain ⟨reference, -, properties, required⟩ := get?_toFields p
    obtain ⟨reference', -, properties', required'⟩ := get?_toFields q
    obtain ⟨items, further, allOf⟩ := get?_toFields_parts p
    obtain ⟨items', further', allOf'⟩ := get?_toFields_parts q
    have itemsCombined : Json.Combined ((single? p.items).map toJson) ((single? q.items).map toJson)
        (Fields.get? "items" fields) := by
      rw [← ofItems?_eq tree.here.items, ← ofItems?_eq tree'.here.items, ← items, ← items']
      exact combined "items"
    have itemsRead := items_combined nodup read itemsCombined
    have treeRead : s.Tree := by
      have nothing {name : String} (left : Fields.get? name p.toFields = none)
          (right : Fields.get? name q.toFields = none) : name ∉ Fields.names fields := by
        have absent := combined name
        rw [left, right] at absent
        exact Fields.get?_eq_none.mp absent.of_absent
      refine ⟨?_, ?_, ?_, ?_⟩
      · exact get_of_absent keptBy_reference
          (nothing (by rw [reference, tree.here.itself]; rfl)
            (by rw [reference', tree'.here.itself]; rfl)) read
      · exact get_of_absent keptBy_additionalProperties
          (nothing (by rw [further, tree.here.further]; rfl)
            (by rw [further', tree'.here.further]; rfl)) read
      · intro schemas is
        rcases itemsRead with ⟨-, -, none⟩ | ⟨j, t, -, -, each⟩
        · rw [none] at is
          cases is
        · rw [each] at is
          cases is
      · exact get_of_absent keptBy_allOf
          (nothing (by rw [allOf, tree.here.allOf]; rfl)
            (by rw [allOf', tree'.here.allOf]; rfl)) read
    have needed (others : Fields Json) : (∀ name ∈ s.required.getD [], name ∈ Fields.names others) ↔
        (∀ name ∈ p.required.getD [], name ∈ Fields.names others) ∧
          ∀ name ∈ q.required.getD [], name ∈ Fields.names others := by
      have both := combined "required"
      rw [required, required'] at both
      rw [required_combined nodup read both]
      exact List.forall_mem_append
    have declared (others : Fields Json) : PropertiesKept (s.properties.getD []) others ↔
        PropertiesKept (p.properties.getD []) others ∧
          PropertiesKept (q.properties.getD []) others := by
      have both := combined "properties"
      rw [properties, properties'] at both
      have left (t : SchemaObject) (mem : t ∈ (p.properties.getD []).map Prod.snd) : t ∈ p.parts :=
        mem_parts.mpr (.inl mem)
      have right (t : SchemaObject) (mem : t ∈ (q.properties.getD []).map Prod.snd) : t ∈ q.parts :=
        mem_parts.mpr (.inl mem)
      exact kept_mergeProperties? (fun t mem => parts t (left t mem))
        (fun t mem => keyed'.parts t (right t mem)) here.properties keyed'.here.properties
        (fun t mem u mem' => ih t (left t mem) (tree.parts t (left t mem))
          (keyed'.parts u (right u mem')) (tree'.parts u (right u mem')))
        (properties_combined nodup keyed'.here.properties read both) others
    have listed (values : List Json) : ItemsKept s.items values ↔
        ItemsKept p.items values ∧ ItemsKept q.items values := by
      have left (t : SchemaObject) (mem : t ∈ single? p.items) : t ∈ p.parts := mem_parts_single mem
      have right (t : SchemaObject) (mem : t ∈ single? q.items) : t ∈ q.parts :=
        mem_parts_single mem
      rw [itemsKept_iff, itemsKept_iff, itemsKept_iff]
      rcases itemsRead with ⟨l, r, none⟩ | ⟨j, t, both, readItem, each⟩
      · rw [l, r, none]
        simp [single?]
      · rw [each]
        have one (w : Json) := kept_combined (fun t mem => parts t (left t mem))
          (fun t mem => keyed'.parts t (right t mem))
          (fun t mem u mem' => ih t (left t mem) (tree.parts t (left t mem))
            (keyed'.parts u (right u mem')) (tree'.parts u (right u mem'))) both readItem w
        simp only [single?, Option.mem_def, Option.some.injEq, forall_eq', one]
        exact forall₂_and
    exact kept_iff_both treeRead keyedRead.here.properties tree.here here.properties tree'.here
      keyed'.here.properties needed declared listed

/-- A schema of a plain object says nothing about items. -/
lemma items_of_isMergeable (mergeable : s.isMergeable) : s.items = none := by
  rw [isMergeable, Bool.and_eq_true, List.all_eq_true] at mergeable
  cases is : s.items with
  | none => rfl
  | some items =>
    have found : Fields.get? "items" s.toFields = ofItems? (some items) := by
      rw [(get?_toFields_parts s).1, is]
    obtain ⟨j, written⟩ : ∃ j, ofItems? (some items) = some j := by
      cases items <;> exact ⟨_, rfl⟩
    have listed := mergeable.2 _ (Fields.mem_of_get? (found.trans written))
    have other : mergeableFields.contains "items" = false := by decide
    exact absurd (other.symm.trans listed) Bool.false_ne_true

/-- The schema of an intersection asks for what both of its sides ask for. -/
lemma kept_intersect {left right : SchemaObject} (keyed : left.Throughout Keyed)
    (tree : left.Throughout Tree) (keyed' : right.Throughout Keyed)
    (tree' : right.Throughout Tree) :
    (left.intersect right).Kept v ↔ left.Kept v ∧ right.Kept v := by
  have whole := keyed_intersect keyed keyed'
  rw [intersect] at whole ⊢
  cases flat : flatten? left right with
  | none =>
    have nothing : demands { allOf := some [left, right] } v = [] := by cases v <;> rfl
    rw [Option.getD_none, kept_mk, nothing]
    simp
  | some s =>
    rw [flat, Option.getD_some] at whole
    rw [Option.getD_some]
    obtain ⟨plainLeft, plainRight, properties, origin, rfl⟩ := flatten?_eq flat
    have merged : mergeProperties? (left.properties.getD []) (right.properties.getD []) =
        some (properties.getD []) := by
      rcases origin with ⟨noLeft, noRight, rfl⟩ | ⟨merged, made, rfl⟩
      · rw [noLeft, noRight]
        rfl
      · exact made
    have fromLeft (t : SchemaObject) (mem : t ∈ (left.properties.getD []).map Prod.snd) :
        t ∈ left.parts := mem_parts.mpr (.inl mem)
    have fromRight (t : SchemaObject) (mem : t ∈ (right.properties.getD []).map Prod.snd) :
        t ∈ right.parts := mem_parts.mpr (.inl mem)
    refine kept_iff_both ⟨rfl, rfl, fun _ is => (by cases is), rfl⟩ whole.here.properties tree.here
      keyed.here.properties tree'.here keyed'.here.properties (fun others => ?_) ?_ fun values => ?_
    · dsimp only
      rw [getD_unionNames, ← List.forall_mem_append]
      refine forall_congr' fun name => imp_congr_left ?_
      rw [mem_unionNames_iff, List.mem_append]
    · exact kept_mergeProperties? (fun t mem => keyed.parts t (fromLeft t mem))
        (fun t mem => keyed'.parts t (fromRight t mem)) keyed.here.properties
        keyed'.here.properties
        (fun t mem u mem' => merges (keyed.parts t (fromLeft t mem)) (tree.parts t (fromLeft t mem))
          (keyed'.parts u (fromRight u mem')) (tree'.parts u (fromRight u mem'))) merged
    · rw [items_of_isMergeable plainLeft, items_of_isMergeable plainRight]
      simp [ItemsKept, ofType]

end SchemaObject

end EventContracts
