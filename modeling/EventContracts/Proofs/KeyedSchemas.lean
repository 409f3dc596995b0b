import EventContracts.Proofs.FormedSchemas
import EventContracts.Proofs.KeyedValues

/-! The documented view of keyed nodes is keyed: no object inside of its values holds a key twice,
no property is there twice, and no bound is null. What is read back of a value is keyed always, so
nothing is asked of the two sides of an intersection. -/

namespace EventContracts

namespace SchemaObject

/-- What the bounds of a number are given as. -/
def bounds (s : SchemaObject) : List (Option Json) :=
  [s.minimum, s.maximum, s.exclusiveMinimum, s.exclusiveMaximum]

/-- Whether no map inside of a schema, apart from the schemas that it is made of, holds a key
twice, and no bound is null. -/
structure Keyed (s : SchemaObject) : Prop where
  properties : (Fields.names (s.properties.getD [])).Nodup
  choices : ∀ v ∈ s.choices.getD [], v.Keyed
  examples : ∀ v ∈ s.examples.getD [], v.Keyed
  default : ∀ v ∈ s.default, v.Keyed
  bounds : ∀ bound ∈ s.bounds, ∀ v ∈ bound, v.Keyed ∧ v ≠ .null

variable {s s' : SchemaObject}

lemma Keyed.change (keyed : s.Keyed) (properties : s'.properties = s.properties)
    (choices : s'.choices = s.choices) (examples : s'.examples = s.examples)
    (default : s'.default = s.default) (bounds : s'.bounds = s.bounds) : s'.Keyed where
  properties := by rw [properties]; exact keyed.properties
  choices := by rw [choices]; exact keyed.choices
  examples := by rw [examples]; exact keyed.examples
  default := by rw [default]; exact keyed.default
  bounds := by rw [bounds]; exact keyed.bounds

lemma keyed_empty : ({} : SchemaObject).Keyed where
  properties := List.nodup_nil
  choices := List.forall_mem_nil _
  examples := List.forall_mem_nil _
  default := by simp
  bounds := by simp [SchemaObject.bounds]

lemma keyed_of_asValues? {w : Json.Written} {values : List Json} (h : w.asValues? = some values) :
    ∀ v ∈ values, v.Keyed := by
  cases w with
  | array items => exact Json.keyed_of_values? items h
  | _ => cases h

/-- A value that is assigned to a field is not null. -/
lemma assign_eq {name : String} {w : Json.Written} {part : Part}
    (h : assign name w part s = some s') : s' = s ∨ w.value? ≠ some .null := by
  cases w with
  | null => exact .inl (Option.some.inj h).symm
  | bool b => exact .inr nofun
  | number n => exact .inr (by cases n <;> nofun)
  | text t => exact .inr (by cases t <;> nofun)
  | array items =>
    refine .inr fun null => ?_
    obtain ⟨_, -, same⟩ := Option.map_eq_some_iff.mp null
    cases same
  | object fields =>
    refine .inr fun null => ?_
    obtain ⟨_, -, same⟩ := Option.map_eq_some_iff.mp null
    cases same

lemma Keyed.assign {name : String} {w : Json.Written} {part : Part} (keyed : s.Keyed)
    (properties : ∀ ps, part.properties () = some ps → (Fields.names ps).Nodup)
    (h : assign name w part s = some s') : s'.Keyed := by
  rcases assign_eq h with rfl | given
  · exact keyed
  have value {v : Json} (read : w.value? = some v) : v.Keyed ∧ v ≠ .null :=
    ⟨Json.keyed_of_value? w read, by rintro rfl; exact given read⟩
  have bounded {s' : SchemaObject} {bound : Json}
      (among : ∀ b ∈ s'.bounds, b = some bound ∨ b ∈ s.bounds) (read : w.value? = some bound) :
      ∀ b ∈ s'.bounds, ∀ v ∈ b, v.Keyed ∧ v ≠ .null := by
    intro b mem v is
    rcases among b mem with rfl | old
    · obtain rfl := Option.some.inj is
      exact value read
    · exact keyed.bounds b old v is
  unfold SchemaObject.assign at h
  split at h
  · exact absurd rfl given
  split at h
  all_goals first
    | obtain rfl := Option.some.inj h
      exact keyed
    | obtain ⟨x, read, rfl⟩ := Option.map_eq_some_iff.mp h
  all_goals try exact keyed.change rfl rfl rfl rfl rfl
  · exact { keyed with properties := properties x read }
  · exact { keyed with choices := keyed_of_asValues? read }
  · refine { keyed with default := ?_ }
    rintro v ⟨⟩
    exact (value read).1
  · exact { keyed with examples := keyed_of_asValues? read }
  all_goals refine { keyed with bounds := bounded ?_ read }
  all_goals simp [SchemaObject.bounds]

lemma Throughout.assign {name : String} {w : Json.Written} {part : Part}
    (keyed : s.Throughout Keyed) (single : ∀ t, part.schema () = some t → t.Throughout Keyed)
    (several : ∀ schemas, part.schemas () = some schemas → ∀ t ∈ schemas, t.Throughout Keyed)
    (named : ∀ ps, part.properties () = some ps →
      (Fields.names ps).Nodup ∧ ∀ property ∈ ps, property.2.Throughout Keyed)
    (h : assign name w part s = some s') : s'.Throughout Keyed := by
  refine .mk (keyed.here.assign (fun ps read => (named ps read).1) h) fun t mem => ?_
  rcases parts_of_assign h mem with
    old | ⟨-, ps, read, inside⟩ | ⟨-, read | ⟨schemas, read, inside⟩⟩
  · exact keyed.parts t old
  · obtain ⟨property, among, rfl⟩ := List.mem_map.mp inside
    exact (named ps read).2 property among
  · exact single t read
  · exact several schemas read t inside

mutual

/-- What is read is keyed. -/
lemma keyed_of_ofWritten? : ∀ (w : Json.Written) {s : SchemaObject}, ofWritten? w = some s →
    s.Throughout Keyed
  | .object fields, _, h => keyed_of_ofFields? fields (.leaf keyed_empty rfl) h
  | .array items, _, h => by
    rw [ofWritten?] at h
    split at h
    · exact keyed_of_ofElements? items (.leaf keyed_empty rfl) h
    · cases h
  | .null, _, h | .bool _, _, h | .number _, _, h | .text _, _, h => by cases h
termination_by structural w => w

lemma keyed_of_schemasOf? : ∀ (w : Json.Written) {schemas : List SchemaObject},
    schemasOf? w = some schemas → ∀ t ∈ schemas, t.Throughout Keyed
  | .array items, _, h => keyed_of_listOf? items h
  | .null, _, h | .bool _, _, h | .number _, _, h | .text _, _, h | .object _, _, h => by cases h
termination_by structural w => w

lemma keyed_of_propertiesOf? : ∀ (w : Json.Written) {ps : Fields SchemaObject},
    propertiesOf? w = some ps →
    (Fields.names ps).Nodup ∧ ∀ property ∈ ps, property.2.Throughout Keyed
  | .object fields, _, h => by
    obtain ⟨pairs, read, rfl⟩ := Option.map_eq_some_iff.mp h
    exact ⟨Fields.names_ofPairs_nodup pairs, fun property mem =>
      keyed_of_pairsOf? fields read property (Fields.mem_of_mem_ofPairs mem)⟩
  | .null, _, h | .bool _, _, h | .number _, _, h | .text _, _, h | .array _, _, h => by cases h
termination_by structural w => w

lemma keyed_of_ofFields? : ∀ (fields : List (Option String × Json.Written)) {seen : List String}
    {s s' : SchemaObject}, s.Throughout Keyed → ofFields? fields seen s = some s' →
    s'.Throughout Keyed
  | [], _, _, _, keyed, h => by
    obtain rfl := Option.some.inj h
    exact keyed
  | (none, _) :: _, _, _, _, _, h => by cases h
  | (some name, w) :: rest, _, _, _, keyed, h => by
    rw [ofFields?] at h
    split at h
    · cases h
    · split at h
      · split at h
        · rename_i middle assigned
          exact keyed_of_ofFields? rest (keyed.assign (fun _ => keyed_of_ofWritten? w)
            (fun _ => keyed_of_schemasOf? w) (fun _ => keyed_of_propertiesOf? w) assigned) h
        · cases h
      · exact keyed_of_ofFields? rest keyed h
termination_by structural fields => fields

lemma keyed_of_ofElements? : ∀ (items : List Json.Written) {names : List String}
    {s s' : SchemaObject}, s.Throughout Keyed → ofElements? items names s = some s' →
    s'.Throughout Keyed
  | [], _, _, _, keyed, h => by
    obtain rfl := Option.some.inj h
    exact keyed
  | _ :: _, [], _, _, keyed, h => by
    obtain rfl := Option.some.inj h
    exact keyed
  | w :: rest, name :: names, _, _, keyed, h => by
    rw [ofElements?] at h
    split at h
    · rename_i middle assigned
      exact keyed_of_ofElements? rest (keyed.assign (fun _ => keyed_of_ofWritten? w)
        (fun _ => keyed_of_schemasOf? w) (fun _ => keyed_of_propertiesOf? w) assigned) h
    · cases h
termination_by structural items => items

lemma keyed_of_listOf? : ∀ (items : List Json.Written) {schemas : List SchemaObject},
    listOf? items = some schemas → ∀ t ∈ schemas, t.Throughout Keyed
  | [], _, h => by
    obtain rfl := Option.some.inj h
    exact List.forall_mem_nil _
  | w :: rest, _, h => by
    obtain ⟨s, first, h⟩ := Option.bind_eq_some_iff.mp h
    obtain ⟨more, later, same⟩ := Option.bind_eq_some_iff.mp h
    obtain rfl := Option.some.inj same
    intro t mem
    rcases List.mem_cons.mp mem with rfl | mem
    · exact keyed_of_ofWritten? w first
    · exact keyed_of_listOf? rest later t mem
termination_by structural items => items

lemma keyed_of_pairsOf? : ∀ (fields : List (Option String × Json.Written))
    {pairs : List (String × SchemaObject)}, pairsOf? fields = some pairs →
    ∀ property ∈ pairs, property.2.Throughout Keyed
  | [], _, h => by
    obtain rfl := Option.some.inj h
    exact List.forall_mem_nil _
  | (name, w) :: rest, _, h => by
    obtain ⟨key, -, h⟩ := Option.bind_eq_some_iff.mp h
    obtain ⟨s, first, h⟩ := Option.bind_eq_some_iff.mp h
    obtain ⟨more, later, same⟩ := Option.bind_eq_some_iff.mp h
    obtain rfl := Option.some.inj same
    intro property mem
    rcases List.mem_cons.mp mem with rfl | mem
    · exact keyed_of_ofWritten? w first
    · exact keyed_of_pairsOf? rest later property mem
termination_by structural fields => fields

end

lemma keyed_ofType (name : String) : (ofType name).Keyed :=
  keyed_empty.change rfl rfl rfl rfl rfl

lemma Throughout.changed (keyed : s.Throughout Keyed) (parts : s'.parts = s.parts)
    (here : s'.Keyed) : s'.Throughout Keyed :=
  .mk here (parts ▸ keyed.parts)

lemma keyed_orNull (keyed : s.Throughout Keyed) : s.orNull.Throughout Keyed := by
  rw [orNull]
  split
  · exact keyed
  · split
    · exact keyed.changed rfl (keyed.here.change rfl rfl rfl rfl rfl)
    · refine .mk (keyed_empty.change rfl rfl rfl rfl rfl) fun part mem => ?_
      have listed : part ∈ [s, ofType "null"] := mem
      rcases List.mem_cons.mp listed with rfl | mem
      · exact keyed
      · obtain rfl := List.mem_singleton.mp mem
        exact .leaf (keyed_ofType _) rfl

lemma keyed_preprocessed (keyed : s.Throughout Keyed) :
    s.preprocessed.Throughout Keyed := by
  rw [preprocessed]
  split
  · exact keyed
  · exact keyed.changed rfl (keyed.here.change rfl rfl rfl rfl rfl)

lemma keyed_combineExamples {left right : List Json} (fromLeft : ∀ v ∈ left, v.Keyed)
    (fromRight : ∀ v ∈ right, v.Keyed) : ∀ v ∈ combineExamples left right, v.Keyed := by
  intro v mem
  rw [combineExamples] at mem
  split at mem
  · exact fromRight v mem
  split at mem
  · exact fromLeft v mem
  obtain ⟨l, inside, mem⟩ := List.mem_flatMap.mp mem
  obtain ⟨r, inside', made⟩ := List.mem_filterMap.mp mem
  split at made
  · obtain rfl := Option.some.inj made
    exact (fromLeft _ inside).merge (fromRight _ inside')
  · cases made

/-- The two sides of an intersection. Their properties are read of a value when they are merged. -/
lemma keyed_intersect {left right : SchemaObject} (fromLeft : left.Throughout Keyed)
    (fromRight : right.Throughout Keyed) : (left.intersect right).Throughout Keyed := by
  rw [intersect]
  cases flat : flatten? left right with
  | none =>
    refine .mk (keyed_empty.change rfl rfl rfl rfl rfl) fun part mem => ?_
    have listed : part ∈ [left, right] := mem
    rcases List.mem_cons.mp listed with rfl | mem
    · exact fromLeft
    · obtain rfl := List.mem_singleton.mp mem
      exact fromRight
  | some s =>
    obtain ⟨-, -, properties, origin, rfl⟩ := flatten?_eq flat
    rw [Option.getD_some]
    have read : (Fields.names (properties.getD [])).Nodup ∧
        ∀ property ∈ properties.getD [], property.2.Throughout Keyed := by
      rcases origin with ⟨-, -, rfl⟩ | ⟨merged, made, rfl⟩
      · exact ⟨List.nodup_nil, List.forall_mem_nil _⟩
      · obtain ⟨fields, -, made⟩ := Option.bind_eq_some_iff.mp made
        obtain ⟨pairs, read, same⟩ := Option.bind_eq_some_iff.mp made
        obtain rfl := Option.some.inj same
        exact ⟨Fields.names_ofPairs_nodup pairs, fun property mem =>
          keyed_of_pairsOf? _ read property (Fields.mem_of_mem_ofPairs mem)⟩
    refine .mk { keyed_ofType "object" with properties := read.1, examples := ?_ }
      fun part mem => ?_
    · intro v mem
      dsimp only at mem
      split at mem
      · exact keyed_combineExamples fromLeft.here.examples fromRight.here.examples v mem
      · cases mem
    · rw [mem_parts] at mem
      rcases mem with mem | mem | mem | mem | mem | mem
      · obtain ⟨property, inside, rfl⟩ := List.mem_map.mp mem
        exact read.2 property inside
      all_goals cases mem

end SchemaObject

namespace Document

open SchemaObject Depicter

variable {setting : Setting} {table : AliasTable SchemaObject} {direction : Direction} {node : Node}
  {s s' : SchemaObject}

lemma keyed_validExamples (keeps : Keeps (setting.library.validate node))
    {samples shown : List Json} (given : ∀ v ∈ samples, v.Keyed)
    (h : depicter.replay setting table (validExamples node direction samples) = .ok shown) :
    ∀ v ∈ shown, v.Keyed := by
  induction samples generalizing shown with
  | nil =>
    obtain rfl := Except.ok.inj h
    exact List.forall_mem_nil _
  | cons sample samples ih =>
    obtain ⟨outcome, asked, h⟩ := replay_bind_ok h
    obtain ⟨first, checked, h⟩ := replay_bind_ok h
    obtain ⟨more, rest, h⟩ := replay_bind_ok h
    obtain rfl := Except.ok.inj h
    have visible : ∀ v ∈ first, v.Keyed := by
      have single := given sample List.mem_cons_self
      change depicter.replay setting table (Walk.check (Document.shown direction sample outcome)) =
        .ok first at checked
      cases outcome with
      | error cause =>
        cases cause with
        | invalid issue =>
          obtain rfl := Except.ok.inj checked
          exact List.forall_mem_nil _
        | interrupted cause => cases checked
      | ok result =>
        obtain rfl := Except.ok.inj checked
        intro v mem
        obtain rfl := List.mem_singleton.mp mem
        split
        · exact .getD (keeps.present sample result single (Except.ok.inj asked))
        · exact single
    intro v mem
    rcases List.mem_append.mp mem with mem | mem
    · exact visible v mem
    · exact ih (fun w inside => given w (List.mem_cons_of_mem _ inside)) rest v mem

lemma keyed_of_annotated (keeps : Keeps (setting.library.validate node))
    (given : ∀ v ∈ node.notes.examples, v.Keyed) (keyed : s.Throughout Keyed)
    (h : depicter.replay setting table (annotate node direction s) = .ok s') :
    s'.Throughout Keyed := by
  rw [annotate] at h
  split at h
  · obtain rfl := Except.ok.inj h
    exact keyed
  · obtain ⟨nullable, -, h⟩ := replay_bind_ok h
    obtain ⟨examples, shown, h⟩ := replay_bind_ok h
    obtain rfl := Except.ok.inj h
    refine keyed.changed rfl { keyed.here with examples := ?_ }
    have valid := keyed_validExamples keeps given shown
    cases examples with
    | nil => exact keyed.here.examples
    | cons => exact valid

lemma keyed_transformed {input : SchemaObject}
    (h : depicter.replay setting table (transformed node input) = .ok s) :
    s.Throughout SchemaObject.Keyed := by
  have isAny : any.Throughout SchemaObject.Keyed :=
    .leaf (keyed_empty.change rfl rfl rfl rfl rfl) rfl
  rw [transformed] at h
  split at h
  · obtain rfl := Except.ok.inj h
    exact isAny
  · obtain ⟨result, -, h⟩ := replay_bind_ok h
    obtain rfl := Except.ok.inj h
    cases result with
    | ok primitive => exact .leaf (keyed_ofType _) rfl
    | error cause => exact isAny

/-- The view of a keyed node is keyed. The induction is on the node. -/
lemma keyed_of_replay (definitions : ∀ field ∈ setting.library.definitions, field.2.Keyed)
    (keyed : node.Keyed) (h : depicter.replay setting table (walk direction node) = .ok s) :
    s.Throughout SchemaObject.Keyed := by
  induction node using Node.induct generalizing direction s with
  | step kind notes ih =>
    obtain ⟨layer, examples, children⟩ := Node.keyed_mk.mp keyed
    obtain ⟨view, drawn, annotated⟩ := layer_of_replay h
    refine keyed_of_annotated (Library.keeps_validate definitions keyed) examples ?_ annotated
    have child {node : Node} {t : SchemaObject} (mem : node ∈ kind.children)
        (shown : Viewed setting table direction node t) : t.Throughout SchemaObject.Keyed :=
      ih node mem (children node mem) shown
    have gathered (gathers : kind.gathers) : ∀ t ∈ view.parts, t.Throughout SchemaObject.Keyed := by
      intro t mem
      obtain ⟨node, inside, shown⟩ := drawn.parts_viewed gathers mem
      exact child (Kind.mem_children_of_gathers gathers inside) shown
    cases drawn with
    | string | bigint | boolean | date | null | any | unknown | array _ | tuple _ | longTuple _ _
    | record _ _ | emptyRecord _ | union _ | taggedUnion _ | reference _ =>
      exact .mk (keyed_empty.change rfl rfl rfl rfl rfl) (gathered rfl)
    | number =>
      refine .mk { keyed_empty with bounds := ?_ } (gathered rfl)
      simp [SchemaObject.bounds, NumberChecks.toSchema, Json.Keyed.number]
    | literal =>
      refine .mk { keyed_empty with choices := ?_ } (gathered rfl)
      intro v mem
      obtain rfl := List.mem_singleton.mp mem
      exact layer
    | choice =>
      refine .mk { keyed_empty with choices := ?_ } (gathered rfl)
      intro v mem
      obtain ⟨text, -, rfl⟩ := List.mem_map.mp mem
      exact .string text
    | object shown =>
      refine .mk { keyed_ofType "object" with properties := ?_ } (gathered rfl)
      rw [Option.getD_some, replay_walkShape_names shown]
      exact layer
    | listedRecord _ _ =>
      exact .mk { keyed_ofType "object" with properties := Fields.names_ofPairs_nodup _ }
        (gathered rfl)
    | intersection fromLeft fromRight =>
      exact keyed_intersect (child (by simp [Kind.children]) fromLeft)
        (child (by simp [Kind.children]) fromRight)
    | optional shown | readonly shown | branded shown | fallback shown | refine shown
    | untried shown _ => exact child List.mem_cons_self shown
    | nullable shown => exact keyed_orNull (child List.mem_cons_self shown)
    | default shown =>
      have before := child List.mem_cons_self shown
      refine before.changed rfl { before.here with default := ?_ }
      rintro v ⟨⟩
      exact layer
    | tried _ _ _ seen => exact keyed_transformed seen
    | preprocess shown =>
      have before := child List.mem_cons_self shown
      split
      · exact before
      · exact keyed_preprocessed before
    | pipeline shown =>
      refine child ?_ shown
      cases direction <;> simp [Kind.children, Direction.isOutput]

end Document

end EventContracts
