import EventContracts.Proofs.AlikeWalks
import EventContracts.Proofs.RenamedJson

/-! The documented view does not depend on the names of its components: with other names for the
components, the walk over a node asks the same and has the renamed result. A schema that stands for
another one is left as it is wherever something is laid over a schema. -/

namespace EventContracts

variable {f : String → String}

namespace Text

/-- What follows a text at the front of another one. -/
def after? (front text : String) : Option String :=
  if front.toList <+: text.toList then some (String.ofList (text.toList.drop front.toList.length))
  else none

lemma after?_append (front rest : String) : after? front (front ++ rest) = some rest := by
  have isFront : front.toList <+: (front ++ rest).toList := by
    rw [String.toList_append]
    exact List.prefix_append _ _
  rw [after?, if_pos isFront, String.toList_append, List.drop_left, String.ofList_toList]

lemma eq_append_of_after? {front text rest : String} (h : after? front text = some rest) :
    text = front ++ rest := by
  rw [after?] at h
  split at h
  · rename_i isFront
    obtain ⟨tail, eq⟩ := isFront
    obtain rfl := Option.some.inj h
    apply String.toList_injective
    rw [String.toList_append, ← eq, List.drop_left, String.toList_ofList]
  · cases h

end Text

namespace SchemaObject

@[simp] lemma isReference_rename (s : SchemaObject) : (s.rename f).isReference = s.isReference := by
  simp [isReference, rename_eq]

@[simp] lemma typeNames_rename (s : SchemaObject) : (s.rename f).typeNames = s.typeNames := by
  rw [rename_eq]

@[simp] lemma format_rename (s : SchemaObject) : (s.rename f).format = s.format := by
  rw [rename_eq]

lemma sampleType?_rename (s : SchemaObject) : (s.rename f).sampleType? = s.sampleType? := by
  simp [sampleType?]

lemma orNull_rename (s : SchemaObject) : (s.rename f).orNull = s.orNull.rename f := by
  simp only [orNull]
  rw [isReference_rename, typeNames_rename]
  split
  · rfl
  · split
    · simp [rename_eq]
    · rw [rename_eq { oneOf := some [s, ofType "null"] }]
      rfl

lemma preprocessed_rename (s : SchemaObject) :
    (s.rename f).preprocessed = s.preprocessed.rename f := by
  simp only [preprocessed]
  rw [isReference_rename, typeNames_rename, format_rename]
  split
  · rfl
  · simp [rename_eq]

lemma ofKeys_rename (keys : List String) (value : SchemaObject) :
    ofKeys keys (value.rename f) = (ofKeys keys value).rename f := by
  have same := Fields.ofPairs_mapValues (rename f) (keys.map fun key => (key, value))
  rw [rename_eq (ofKeys keys value)]
  simp only [ofKeys, ofType, Option.map_some, Option.map_none]
  rw [← same]
  simp [Fields.mapValues, Function.comp_def]

/-- What is laid over a schema without touching the schemas in it. -/
lemma overlay_rename (s : SchemaObject) (description : Option String)
    (typeNames : Option TypeNames) (examples : Option (List Json)) :
    (s.rename f).overlay
        { description := description, typeNames := typeNames, examples := examples } =
      (s.overlay
        { description := description, typeNames := typeNames, examples := examples }).rename f := by
  rw [rename_eq, rename_eq]
  simp [overlay]

/-- The name of the component that is found at a path. -/
def componentName? (path : String) : Option String := Text.after? "#/components/schemas/" path

/-- Other names for components, along the paths that lead to them. -/
def alongPaths (f : String → String) (path : String) : String :=
  match componentName? path with
  | some name => componentPath (f name)
  | none => path

@[simp] lemma componentName?_componentPath (name : String) :
    componentName? (componentPath name) = some name :=
  Text.after?_append _ name

lemma componentPath_inj {a b : String} : componentPath a = componentPath b ↔ a = b := by
  refine ⟨fun h => ?_, fun h => by rw [h]⟩
  have := congrArg componentName? h
  simpa using this

lemma eq_componentPath {path name : String} (h : componentName? path = some name) :
    path = componentPath name :=
  Text.eq_append_of_after? h

@[simp] lemma alongPaths_componentPath (f : String → String) (name : String) :
    alongPaths f (componentPath name) = componentPath (f name) := by
  simp [alongPaths]

lemma alongPaths_injective (inj : Function.Injective f) :
    Function.Injective (alongPaths f) := by
  intro a b h
  simp only [alongPaths] at h
  split at h <;> split at h
  · rename_i x ha _ y hb
    rw [eq_componentPath ha, eq_componentPath hb, inj (componentPath_inj.mp h)]
  · rename_i x ha _ hb
    rw [← h, componentName?_componentPath] at hb
    cases hb
  · rename_i ha _ y hb
    rw [h, componentName?_componentPath] at ha
    cases ha
  · exact h

lemma isMergeable_rename (s : SchemaObject) : (s.rename f).isMergeable = s.isMergeable := by
  have names := (toFields_renamed (f := f) s).names_eq
  have all (fields : Fields Json) : fields.all (fun field => mergeableFields.contains field.1) =
      (Fields.names fields).all fun name => mergeableFields.contains name := by
    simp [Fields.names, List.all_map, Function.comp_def]
  simp only [isMergeable, typeNames_rename, all, names]

lemma mergeProperties?_rename (inj : Function.Injective f)
    (left right : List (String × SchemaObject)) :
    mergeProperties? (Fields.mapValues (rename f) left) (Fields.mapValues (rename f) right) =
      (mergeProperties? left right).map (Fields.mapValues (rename f)) := by
  have written (properties : List (String × SchemaObject)) :
      RenamedFields f (fun _ => .nested) (fieldsOfProperties properties)
        (fieldsOfProperties (Fields.mapValues (rename f) properties)) := by
    rw [← renameProperties_eq_mapValues]
    exact fieldsOfProperties_renamed fun s _ => toFields_renamed s
  have merged := Json.mergeFields_renamed inj _ (written right) (written left)
  simp only [mergeProperties?]
  revert merged
  generalize Json.mergeFields (fieldsOfProperties left) (fieldsOfProperties right) = a
  generalize Json.mergeFields (fieldsOfProperties (Fields.mapValues (rename f) left))
    (fieldsOfProperties (Fields.mapValues (rename f) right)) = b
  intro merged
  cases merged with
  | none => rfl
  | @some fields fields' h =>
    have read := pairsOf?_renamed fields h
    simp only [Option.bind_eq_bind, Option.bind_some, read]
    cases pairsOf? (Json.writtenFields fields) with
    | none => rfl
    | some pairs => exact congrArg some (Fields.ofPairs_mapValues (rename f) pairs)

lemma flatten?_rename (inj : Function.Injective f) (left right : SchemaObject) :
    flatten? (left.rename f) (right.rename f) = (flatten? left right).map (rename f) := by
  have getD (a : Option (List (String × SchemaObject))) :
      (a.map (Fields.mapValues (rename f))).getD [] =
        Fields.mapValues (rename f) (a.getD []) := by
    cases a <;> rfl
  simp only [flatten?]
  rw [isMergeable_rename, isMergeable_rename]
  by_cases plain : left.isMergeable && right.isMergeable
  · simp only [plain, if_true, rename_eq left, rename_eq right, Option.isSome_map, getD,
      mergeProperties?_rename inj]
    by_cases given : left.properties.isSome || right.properties.isSome
    · simp only [given, if_true]
      cases mergeProperties? (left.properties.getD []) (right.properties.getD []) with
      | none => rfl
      | some properties => simp [rename_eq, ofType]
    · simp only [given, Bool.false_eq_true, if_false]
      simp [rename_eq, ofType]
  · simp only [plain, Bool.false_eq_true, if_false]
    rfl

lemma intersect_rename (inj : Function.Injective f) (left right : SchemaObject) :
    (left.rename f).intersect (right.rename f) = (left.intersect right).rename f := by
  simp only [intersect]
  rw [flatten?_rename inj]
  cases flatten? left right with
  | some s => rfl
  | none => simp [rename_eq]

end SchemaObject

namespace Document

variable {asked : String → Prop}

open SchemaObject

/-- A walk whose result is renamed with the components. -/
abbrev Renames (asked : String → Prop) (f : String → String) (w : Path SchemaObject) : Prop :=
  Walk.Alike asked (rename f) (rename f) w w

lemma alike_validExamples {rename : SchemaObject → SchemaObject} (node : Node)
    (direction : Direction) (samples : List Json) :
    Walk.Alike asked rename id (validExamples node direction samples)
      (validExamples node direction samples) := by
  induction samples with
  | nil => exact .pure rfl
  | cons sample samples ih =>
    refine .outcome rfl rfl ?_
    intro outcome finished
    refine .bind (g := id) ?_ fun first => .bind ih fun more => .pure rfl
    match outcome with
    | .ok _ => exact .done _
    | .error (.invalid _) => exact .done _
    | .error (.interrupted .crash) => exact .halt rfl
    | .error (.interrupted .unfinished) => exact absurd rfl finished

lemma alike_nullable {rename : SchemaObject → SchemaObject} (node : Node) (direction : Direction) :
    Walk.Alike asked rename id (nullable node direction) (nullable node direction) := by
  rw [nullable]
  split
  · exact .pure rfl
  · exact .accepts

lemma alike_annotate (node : Node) (direction : Direction) (s : SchemaObject) :
    Walk.Alike asked (rename f) (rename f) (annotate node direction s)
      (annotate node direction (s.rename f)) := by
  simp only [annotate]
  rw [isReference_rename]
  split
  · exact .pure rfl
  · refine .bind (alike_nullable node direction) ?_
    intro nullable
    refine .bind (alike_validExamples node direction _) fun examples => .pure ?_
    rw [typeNames_rename]
    exact overlay_rename s _ _ _

lemma alike_transformed (node : Node) (input : SchemaObject) :
    Walk.Alike asked (rename f) (rename f) (transformed node input)
      (transformed node (input.rename f)) := by
  simp only [transformed]
  rw [sampleType?_rename]
  split
  · exact .pure rfl
  · refine .bind .probe fun result => .pure ?_
    rcases result with _ | _ <;> rfl

variable {direction : Direction}

lemma alike_walkItems (nodes : List Node)
    (ih : ∀ node ∈ nodes, Renames asked f (walk direction node)) :
    Walk.Alike asked (rename f) (List.map (rename f)) (walkItems direction nodes)
      (walkItems direction nodes) := by
  induction nodes with
  | nil => exact .pure rfl
  | cons node nodes rest =>
    refine .bind (ih node List.mem_cons_self) ?_
    intro first
    exact .bind (rest fun n mem => ih n (List.mem_cons_of_mem _ mem)) fun more => .pure rfl

lemma alike_walkShape (shape : List (String × Node))
    (ih : ∀ node ∈ shape.map Prod.snd, Renames asked f (walk direction node)) :
    Walk.Alike asked (rename f) (Prod.map (Fields.mapValues (rename f)) id)
      (walkShape direction shape) (walkShape direction shape) := by
  induction shape with
  | nil => exact .pure rfl
  | cons field shape rest =>
    obtain ⟨key, node⟩ := field
    refine .bind (ih node List.mem_cons_self) ?_
    intro s
    refine .bind .fieldOptional ?_
    intro optional
    exact .bind (rest fun n mem => ih n (List.mem_cons_of_mem _ mem)) fun more => .pure rfl

/-- The walk over a layer, when the walks over its children are alike. -/
lemma alike_layer (inj : Function.Injective f) (kind : Kind Node) (notes : Notes)
    (self : ∀ key target, kind = .reference key target → asked target)
    (child : ∀ node ∈ kind.children, Renames asked f (walk direction node)) :
    Renames asked f (walk direction (.mk kind notes)) := by
  unfold Renames walk
  refine .bind (g := rename f) ?_ fun s => alike_annotate _ direction s
  cases kind with
  | string _ | number _ | bigint _ | boolean _ | date _ | null | any | unknown | literal _
  | choice _ => exact .pure rfl
  | array item _ _ => exact .bind (child item (by simp [Kind.children])) fun s => .pure rfl
  | tuple items rest =>
    refine .bind (alike_walkItems items fun node mem => child node (by simp [Kind.children, mem]))
      fun items => ?_
    cases rest with
    | none => exact .pure (by simp [rename_eq, ofType, Items.map, Further.map])
    | some rest =>
      refine .bind (child rest (by simp [Kind.children])) fun s => .pure ?_
      simp [rename_eq, ofType, Items.map, Further.map]
  | object shape =>
    refine .bind (alike_walkShape shape child) fun result => .pure ?_
    obtain ⟨properties, required⟩ := result
    simp [rename_eq, ofType]
  | record key value =>
    have valueAlike := child value (by simp [Kind.children])
    simp only
    split
    · exact .bind valueAlike fun s => .pure rfl
    · exact .pure rfl
    · exact .bind valueAlike fun s => .pure (ofKeys_rename _ s)
  | union options =>
    refine .bind (alike_walkItems options child) fun options => .pure ?_
    simp [rename_eq]
  | taggedUnion discriminator options =>
    refine .bind (alike_walkItems options child) fun options => .pure ?_
    simp [rename_eq]
  | intersection left right =>
    refine .bind (child left (by simp [Kind.children])) ?_
    intro left
    exact .bind (child right (by simp [Kind.children])) fun right =>
      .pure (intersect_rename inj left right)
  | optional inner | fallback inner _ | branded inner _ | readonly inner =>
    exact child inner (by simp [Kind.children])
  | nullable inner =>
    exact .bind (child inner (by simp [Kind.children])) fun s => .pure (orNull_rename s)
  | default inner value =>
    refine .bind (child inner (by simp [Kind.children])) fun s => .pure ?_
    simp [rename_eq]
  | effect inner effect =>
    refine .bind (child inner (by simp [Kind.children])) ?_
    intro s
    cases effect with
    | refine _ => exact .pure rfl
    | transform _ =>
      cases direction with
      | input => exact .pure rfl
      | output =>
        simp only [isReference_rename]
        split
        · exact .pure rfl
        · exact alike_transformed _ s
  | preprocess inner _ =>
    refine .bind (child inner (by simp [Kind.children])) fun s => .pure ?_
    split
    · rfl
    · exact preprocessed_rename s
  | pipeline input output =>
    cases direction with
    | input => exact child input (by simp [Kind.children])
    | output => exact child output (by simp [Kind.children])
  | reference key target => exact .view (self key target rfl)
  | void | function _ _ | custom _ => exact .unsupported

/-- The walk over a node does the same under other names for the components. -/
theorem alike_walk (inj : Function.Injective f) (node : Node) (direction : Direction) :
    Renames node.Refers f (walk direction node) := by
  induction node using Node.induct with
  | step kind notes ih =>
    refine alike_layer inj kind notes ?_ fun child mem => (ih child mem).mono fun _ => .child mem
    rintro key target rfl
    exact .here

lemma uniform : depicter.Uniform fun f => rename (alongPaths f) where
  unknown _ _ := ⟨_, rfl⟩
  refer f name := by simp [depicter, SchemaObject.refer, rename_eq]
  alike _ inj _ node direction := alike_walk (alongPaths_injective inj) node direction

end Document

end EventContracts
