import EventContracts.Proofs.DocumentedLayers
import EventContracts.Proofs.DocumentedWalks
import EventContracts.Proofs.MemoTransparency
import EventContracts.Proofs.PlainOutputs

/-! What validation gives fits what the documented view of output says, for schemas in which every
layer shows what it gives. Four kinds of layers do not: results that are put together are not what
either side gives, a fallback is not validated, a transform is known by one sample only, and a
record of listed keys need not have them. Null is out of place in the view of a reference and
beside listed values. -/

namespace EventContracts

namespace Kind

variable {α : Type}

/-- The parts of a layer whose views make up its output view. -/
def outputParts : Kind α → List α
  | record _ value => [value]
  | pipeline _ output => [output]
  | function .. => []
  | kind => kind.children

lemma outputParts_subset (kind : Kind α) : kind.outputParts ⊆ kind.children := by
  cases kind <;> simp [outputParts, children]

end Kind

namespace Node

/-- Whether null can be allowed in the output view of a node. -/
def opens : Node → Bool
  | .mk kind _ => match kind with
    | .reference .. => false
    | .choice _ => false
    | .literal .null => true
    | .literal _ => false
    | .optional inner => opens inner
    | .default inner _ => opens inner
    | .branded inner _ => opens inner
    | .readonly inner => opens inner
    | .effect inner _ => opens inner
    | .preprocess inner _ => opens inner
    | .pipeline _ output => opens output
    | _ => true
termination_by structural node => node

end Node

/-- Whether the output view of a layer shows what the layer gives. -/
def Kind.Shows : Kind Node → Prop
  | intersection .. => False
  | fallback .. => False
  | effect _ (.transform _) => False
  | nullable inner => inner.opens
  | record key _ => key.listedKeys?.getD [] = []
  | object shape => (Fields.names shape).Nodup
  | _ => True

/-- Whether the output views of all layers that a view is made of show what they give. -/
inductive Node.Shows : Node → Prop where
  | mk {kind : Kind Node} {notes : Notes} (layer : kind.Shows)
      (parts : ∀ part ∈ kind.outputParts, part.Shows) : Shows (.mk kind notes)

lemma Node.shows_mk {kind : Kind Node} {notes : Notes} :
    (Node.mk kind notes).Shows ↔ kind.Shows ∧ ∀ part ∈ kind.outputParts, part.Shows :=
  ⟨fun ⟨layer, parts⟩ => ⟨layer, parts⟩, fun ⟨layer, parts⟩ => ⟨layer, parts⟩⟩

namespace Document

open SchemaObject Depicter

variable {setting : Setting} {table : AliasTable SchemaObject}

/-- A field that may not be left out refuses an absent value, or coerces it. -/
lemma replay_required {node : Node} {direction : Direction}
    (h : depicter.replay setting table (Walk.fieldOptional direction node) = .ok false) :
    node.coerces ∨ ∃ issue, setting.library.validate node none = .error (.invalid issue) := by
  rw [Walk.fieldOptional] at h
  split at h
  · rename_i coerces
    exact .inl (Bool.and_eq_true_iff.mp coerces).2
  · change depicter.replay setting table
      (Walk.check (setting.library.validate node none).accepted) = .ok false at h
    cases answer : setting.library.validate node none with
    | ok made =>
      rw [answer] at h
      cases h
    | error failure =>
      cases failure with
      | invalid issue => exact .inr ⟨issue, rfl⟩
      | interrupted reason =>
        rw [answer] at h
        cases h

variable (setting table) in
/-- Whether a schema is the output view of a node, as a table replays it. -/
abbrev Views (node : Node) (s : SchemaObject) : Prop :=
  depicter.replay setting table (walk .output node) = .ok s

lemma open_orNull {s : SchemaObject} (free : s.Open) : s.orNull.Open := by
  rw [orNull]
  rw [if_neg (by simp [isReference, free.plain])]
  split
  · rename_i t eq
    exact ⟨free.plain, free.choice, fun _ => free.oneOf (by simp [eq]), free.allOf⟩
  · exact open_of_choices_none rfl rfl (fun typed => by cases typed) rfl

lemma open_of_views {node : Node} {s : SchemaObject} (shows : node.Shows) (opens : node.opens)
    (h : Views setting table node s) : s.Open := by
  induction node using Node.induct generalizing s with
  | step kind notes ih =>
    obtain ⟨layer, parts⟩ := shows
    obtain ⟨view, drawn, annotated⟩ := layer_of_replay h
    suffices free : view.Open by
      rcases replay_annotate annotated with rfl | ⟨nullable, description, examples, rfl⟩
      · exact free
      · refine ⟨free.plain, free.choice, fun typed => free.oneOf ?_, free.allOf⟩
        cases nullable <;> simpa [overlay] using typed
    have child {part : Node} {view : SchemaObject} (mem : part ∈ kind.outputParts)
        (opens : part.opens) (h : Views setting table part view) : view.Open :=
      ih part (kind.outputParts_subset mem) (parts part mem) opens h
    unfold Node.opens at opens
    cases drawn with
    | string | number | bigint | boolean | date | null | any | unknown | array _ | tuple _
    | longTuple _ _ | object _ | record _ _ | emptyRecord _ | listedRecord _ _ =>
      exact open_of_choices_none rfl rfl (fun _ => rfl) rfl
    | @literal value =>
      cases value with
      | null =>
        refine ⟨rfl, fun values eq => ?_, fun _ => rfl, rfl⟩
        obtain rfl := Option.some.inj eq
        exact List.mem_singleton_self _
      | _ => cases opens
    | choice | reference _ => cases opens
    | union _ | taggedUnion _ =>
      exact open_of_choices_none rfl rfl (fun typed => by cases typed) rfl
    | optional shown | readonly shown | branded shown | refine shown | preprocess shown =>
      exact child (by simp [Kind.outputParts, Kind.children]) opens shown
    | pipeline shown => exact child (by simp [Kind.outputParts]) opens shown
    | nullable shown =>
      exact open_orNull (child (by simp [Kind.outputParts, Kind.children]) layer shown)
    | default shown =>
      have free := child (by simp [Kind.outputParts, Kind.children]) opens shown
      exact ⟨free.plain, free.choice, free.oneOf, free.allOf⟩
    | intersection _ _ | fallback _ | untried _ _ | tried _ _ _ _ => exact layer.elim

lemma lists_of_annotate {node : Node} {direction : Direction} {view s : SchemaObject}
    (lists : view.Lists)
    (h : depicter.replay setting table (annotate node direction view) = .ok s) : s.Lists := by
  rcases replay_annotate h with rfl | ⟨nullable, description, examples, rfl⟩
  · exact lists
  · refine ⟨lists.plain, ?_, lists.listed⟩
    cases nullable <;> simpa [overlay] using lists.typed

/-- Why null is kept away from listed values: it is given for null, and it does not fit the view,
where only the types tell that null is allowed. -/
theorem nullable_choice_misfits {values : List String} {notes outer : Notes} {s : SchemaObject}
    (view : Views setting table (.mk (.nullable (.mk (.choice values) notes)) outer) s)
    (patterns : PatternReader) (deref : String → Option Json → Outcome) :
    Node.validateWith patterns deref (.mk (.nullable (.mk (.choice values) notes)) outer)
      (some .null) =
      .ok (some .null) ∧ ¬ Fits table.definitions s .null := by
  refine ⟨rfl, ?_⟩
  obtain ⟨_, layer, annotated⟩ := layer_of_replay view
  cases layer with
  | nullable inside =>
    obtain ⟨_, layer, noted⟩ := layer_of_replay inside
    cases layer
    have lists : SchemaObject.Lists
        { ofType "string" with choices := some (values.map .string) } :=
      ⟨rfl, rfl, _, rfl, by simp⟩
    exact (lists_of_annotate (lists_of_annotate lists noted).orNull annotated).misfit

variable {depth : Nat}

/-- A field that is not made has not been required: a value that is there would not be lost, and a
schema that refuses an absent value at one depth does not give nothing for it at another one. -/
lemma made_of_required {node : Node} {input : Option Json}
    (needed : depicter.replay setting table (Walk.fieldOptional .output node) = .ok false) :
    Node.validateWith setting.library.patterns (setting.library.follow depth) node input ≠
      .ok none := by
  intro lost
  cases input with
  | some v => exact Node.validateWith_present (Node.follow_present _ _ depth) node v lost
  | none =>
    rcases replay_required needed with coerces | ⟨issue, refused⟩
    · exact Node.validateWith_coerces coerces lost
    · rw [← Node.validate_eq] at lost
      have := Node.validate_agree lost refused (by simp) (by simp)
      cases this

variable (setting table depth) in
/-- Whether everything that a node gives, with references followed to a depth, fits its view. -/
def Fitting (node : Node) : Prop :=
  ∀ s, Views setting table node s → ∀ input w,
    Node.validateWith setting.library.patterns (setting.library.follow depth) node input =
      .ok (some w) →
    Fits table.definitions s w

lemma fits_positions {nodes : List Node} {views : List SchemaObject} {items : List Json}
    (part : ∀ node ∈ nodes, Fitting setting table depth node)
    (shown : List.Forall₂ (Views setting table) nodes views)
    (made : List.Forall₂ (fun node item => ∃ v,
      Node.validateWith setting.library.patterns (setting.library.follow depth) node (some v) =
        .ok (some item)) nodes items) :
    List.Forall₂ (Fits table.definitions) views items := by
  induction shown generalizing items with
  | nil =>
    cases made
    exact .nil
  | cons view _ ih =>
    cases made with
    | cons first rest =>
      obtain ⟨v, first⟩ := first
      exact .cons (part _ List.mem_cons_self _ view _ _ first)
        (ih (fun node mem => part node (List.mem_cons_of_mem _ mem)) rest)

lemma fits_first {nodes : List Node} {views : List SchemaObject} {input : Option Json} {w : Json}
    (part : ∀ node ∈ nodes, Fitting setting table depth node)
    (shown : List.Forall₂ (Views setting table) nodes views)
    (made : Node.validateFirst setting.library.patterns (setting.library.follow depth) nodes input =
      .ok (some w)) : ∃ view ∈ views, Fits table.definitions view w := by
  obtain ⟨node, mem, made⟩ := Node.validateFirst_ok made
  clear * - part shown mem made
  induction shown with
  | nil => cases mem
  | cons view _ ih =>
    rcases List.mem_cons.mp mem with rfl | mem
    · exact ⟨_, List.mem_cons_self, part _ List.mem_cons_self _ view _ _ made⟩
    · obtain ⟨other, inside, fits⟩ := ih (fun n mem => part n (List.mem_cons_of_mem _ mem)) mem
      exact ⟨other, List.mem_cons_of_mem _ inside, fits⟩

/-- What an object gives: its fields come from the nodes of the shape, each of which has one view,
and what is required is there. -/
lemma fits_shape {shape : List (String × Node)} {properties : List (String × SchemaObject)}
    {required : List String} {fields found : Fields Json} (nodup : (Fields.names shape).Nodup)
    (part : ∀ node ∈ shape.map Prod.snd, Fitting setting table depth node)
    (shown : ∀ property ∈ properties, ∃ node, (property.1, node) ∈ shape ∧
      Views setting table node property.2)
    (needed : ∀ key ∈ required, ∃ node, (key, node) ∈ shape ∧
      depicter.replay setting table (Walk.fieldOptional .output node) = .ok false)
    (made :
      Node.validateShape setting.library.patterns (setting.library.follow depth) shape fields =
      .ok found) :
    Fits table.definitions { ofType "object" with
      properties := some properties
      required := if required.isEmpty then none else some required } (.object found) := by
  obtain ⟨from_shape, left_out⟩ := Node.validateShape_ok made
  refine fits_object (fun property mem v present => ?_) fun key mem => ?_
  · obtain ⟨node, inside, view⟩ := shown property mem
    obtain ⟨other, inside', made⟩ := from_shape _ (Fields.mem_of_get? present)
    obtain rfl := Option.some.inj ((Fields.get?_of_mem nodup inside).symm.trans
      (Fields.get?_of_mem nodup inside'))
    exact part node (List.mem_map_of_mem inside) _ view _ _ made
  · obtain ⟨node, inside, asked⟩ := needed key mem
    by_contra absent
    exact made_of_required asked (left_out _ inside absent)

/-- What a layer gives fits its view, when what its parts give fits theirs. -/
lemma fits_layer {kind : Kind Node} {notes : Notes} {view : SchemaObject} {input : Option Json}
    {w : Json} (drawn : Layer setting table .output notes kind view)
    (shows : (Node.mk kind notes).Shows)
    (part : ∀ node ∈ kind.outputParts, Fitting setting table depth node)
    (reference : ∀ key target name, kind = .reference key target →
      table.nameOf? (setting.aliasKey .output (setting.resolve target)) = some name →
      ∀ input w, setting.library.follow depth target input = .ok (some w) →
        Fits table.definitions (.refer (componentPath name)) w)
    (made :
      Node.validateWith setting.library.patterns (setting.library.follow depth) (.mk kind notes)
      input = .ok (some w)) : Fits table.definitions view w := by
  have present := Node.follow_present setting.library.patterns setting.library.definitions depth
  obtain ⟨layer, parts⟩ := shows
  cases drawn with
  | string =>
    cases Node.makes_of_validateWith made with
    | string made => exact StringChecks.validate_fits made
  | number =>
    cases Node.makes_of_validateWith made with
    | number made => exact NumberChecks.validate_fits made
  | bigint =>
    cases Node.makes_of_validateWith made with
    | bigint made => exact validateBigint_fits made
  | boolean =>
    cases Node.makes_of_validateWith made with
    | boolean made => exact validateBoolean_fits made
  | date =>
    cases Node.makes_of_validateWith made with
    | date made => exact validateDate_fits made
  | null =>
    cases Node.makes_of_validateWith made with
    | null => exact ofType_fits rfl
  | any | unknown => exact any_fits
  | literal => exact literal_fits (Node.validateWith_literal_ok made)
  | choice =>
    obtain ⟨text, listed, rfl⟩ := Node.validateWith_choice_ok made
    exact choice_fits listed
  | array shown =>
    obtain ⟨items, rfl, long, short, each⟩ := Node.validateWith_array_ok present made
    refine fits_array long short ?_
    intro item mem
    obtain ⟨v, made⟩ := each item mem
    exact part _ (by simp [Kind.outputParts, Kind.children]) _ shown _ _ made
  | tuple shown =>
    obtain ⟨first, more, rfl, positions, closed, -⟩ := Node.validateWith_tuple_ok present made
    have fits := fits_positions (fun node mem =>
      part node (by simp [Kind.outputParts, Kind.children, mem])) shown positions
    exact fits_tuple fits (fun _ => closed rfl) fun s none => by cases none
  | longTuple shown further =>
    obtain ⟨first, more, rfl, positions, -, each⟩ := Node.validateWith_tuple_ok present made
    have fits := fits_positions (fun node mem =>
      part node (by simp [Kind.outputParts, Kind.children, mem])) shown positions
    refine fits_tuple fits (fun none => by cases none) ?_
    intro s same item mem
    obtain rfl := Further.schema.inj same
    obtain ⟨v, made⟩ := each _ rfl item mem
    exact part _ (by simp [Kind.outputParts, Kind.children]) _ further _ _ made
  | object shown =>
    obtain ⟨fields, found, -, same, shaped⟩ := Node.validateWith_object_ok made
    obtain rfl := Option.some.inj same
    exact fits_shape layer part (replay_walkShape shown).1 (replay_walkShape shown).2 shaped
  | record _ shown =>
    obtain ⟨found, rfl, each⟩ := Node.validateWith_record_ok made
    refine fits_record ?_
    intro field mem
    obtain ⟨v, made⟩ := each field mem
    exact part _ (by simp [Kind.outputParts]) _ shown _ _ made
  | emptyRecord _ =>
    obtain ⟨found, rfl, -⟩ := Node.validateWith_record_ok made
    exact ofType_fits rfl
  | listedRecord listed _ =>
    simp only [Kind.Shows, listed, Option.getD_some] at layer
    cases layer
  | union shown =>
    obtain ⟨view, mem, fits⟩ := fits_first part shown made
    exact fits_union mem fits none
  | taggedUnion shown =>
    obtain ⟨view, mem, fits⟩ := fits_first part shown made
    exact fits_union mem fits _
  | optional shown =>
    cases input with
    | none => cases made
    | some v => exact part _ (by simp [Kind.outputParts, Kind.children]) _ shown _ _ made
  | readonly shown | branded shown =>
    exact part _ (by simp [Kind.outputParts, Kind.children]) _ shown _ _ made
  | nullable shown =>
    cases Node.makes_of_validateWith made with
    | nulled =>
      exact (open_of_views (parts _ (by simp [Kind.outputParts, Kind.children])) layer
        shown).fits_null
    | nullable _ made =>
      exact (part _ (by simp [Kind.outputParts, Kind.children]) _ shown _ _ made).orNull
  | default shown =>
    exact (part _ (by simp [Kind.outputParts, Kind.children]) _ shown _ _ made).withDefault _
  | refine shown =>
    cases Node.makes_of_validateWith made with
    | refine made _ => exact part _ (by simp [Kind.outputParts, Kind.children]) _ shown _ _ made
  | preprocess shown =>
    cases Node.makes_of_validateWith made with
    | preprocess _ made =>
      exact part _ (by simp [Kind.outputParts, Kind.children]) _ shown _ _ made
  | @pipeline _ output _ shown =>
    cases Node.makes_of_validateWith made with
    | pipeline _ made => exact part output (List.mem_singleton_self _) _ shown _ _ made
  | reference named => exact reference _ _ _ rfl named _ _ made
  | intersection _ _ | fallback _ | untried _ _ | tried _ _ _ _ => exact layer.elim

variable (setting table depth) in
/-- Whether everything that references to some targets give, followed to a depth, fits the component
of the reference. -/
def References (asked : String → Prop) : Prop :=
  ∀ target name, asked target →
    table.nameOf? (setting.aliasKey .output (setting.resolve target)) = some name →
    ∀ input w, setting.library.follow depth target input = .ok (some w) →
      Fits table.definitions (.refer (componentPath name)) w

variable {asked : String → Prop}

/-- What a node gives fits its view, when what its references give fits the components. -/
lemma fitting_of_references (references : References setting table depth asked) {node : Node}
    (shows : node.Shows) (inScope : ∀ target, node.Refers target → asked target) :
    Fitting setting table depth node := by
  induction node using Node.induct with
  | step kind notes ih =>
    intro s view input w made
    obtain ⟨layer, parts⟩ := id shows
    obtain ⟨drawn, isLayer, annotated⟩ := layer_of_replay view
    have fits : Fits table.definitions drawn w := by
      refine fits_layer isLayer shows (fun part mem => ?_) ?_ made
      · have child := kind.outputParts_subset mem
        exact ih part child (parts part mem) fun target refers =>
          inScope target (.child child refers)
      · rintro key target name rfl named input w made
        exact references target name (inScope target .here) named input w made
    rcases replay_annotate annotated with rfl | ⟨nullable, description, examples, rfl⟩
    · exact fits
    · exact fits.overlay nullable description examples

/-- The induction on the depth: a reference gives what its schema gives at the depth below. -/
lemma references_fit (steady : depicter.Steady setting asked table) (closed : setting.Closed asked)
    (distinguishes : setting.Distinguishes asked)
    (definitions : ∀ field ∈ setting.library.definitions, field.2.Shows) (depth : Nat) :
    References setting table depth asked := by
  induction depth with
  | zero =>
    intro target name _ _ input w made
    cases made
  | succ depth ih =>
    intro target name mem named input w made
    obtain ⟨entry, found, rfl⟩ := AliasTable.get?_of_nameOf? named
    have shows : (setting.resolve target).Shows := by
      rcases setting.resolve_cases target with ⟨field, inside, same⟩ | ⟨unknown, custom⟩
      · rw [same]
        exact definitions field inside
      · rw [custom]
        exact .mk trivial nofun
    simp only [Node.follow] at made
    rw [Node.validate_eq] at made
    exact .reference rfl (steady.numbered.get?_definitions found)
      (fitting_of_references ih shows (closed target mem) _
        (steady.replays distinguishes mem found) input w made)

end Document

/-- What validation gives fits the documented view of output, with the components that the view was
made with: for every schema whose layers show what they give, over definitions of the same sort,
every input, absent or not, and references followed to any depth. -/
theorem documented_outputs_fit (setting : Setting) (node : Node) (shows : node.Shows)
    (definitions : ∀ field ∈ setting.library.definitions, field.2.Shows)
    (distinguishes : setting.Distinguishes (setting.Mentions [(node, .output)])) (s : SchemaObject)
    (table : AliasTable SchemaObject)
    (depicted : Document.depict setting .output node Document.noComponents = (.ok s, table))
    (depth : Nat) (input : Option Json) (w : Json)
    (made : node.validate setting.library.patterns setting.library.definitions depth input =
      .ok (some w)) :
    s.Fits table.definitions w := by
  have closed := setting.closed_mentions [(node, .output)]
  have inScope : ∀ target, node.Refers target → setting.Mentions [(node, .output)] target :=
    fun target refers => .inl ⟨_, List.mem_singleton_self _, refers⟩
  obtain ⟨-, steady, replayed⟩ := Depicter.Steady.depict (.empty Document.depicter setting _)
    Document.uniform closed inScope depicted
  rw [Node.validate_eq] at made
  exact Document.fitting_of_references
    (Document.references_fit steady closed distinguishes definitions depth) shows inScope s
    (replayed table (.refl table)) input w made

/-- Trees with a label that is coerced, a mark that may be null, and branches. -/
def orchardSetting : Setting where
  library := {
    definitions := [("Tree", .of (.object [
      ("label", .of (.string { maxLength := some 8, coerce := true })),
      ("mark", .of (.nullable (.of (.number {})))),
      ("branches", .of (.optional (.of
        (.array (.of (.reference "tree" "Tree")) none (some 2)))))]))] }
  fingerprint node := node.kindName

def orchard : Node := .of (.array (.of (.reference "tree" "Tree")) (some 1) none)

/-- A tree with a number as its label, and a branch. -/
def orchardInput : Json :=
  .array [.object [("label", .whole 7), ("mark", .null), ("branches", .array [
    .object [("label", .string "twig"), ("mark", .whole 1)]])]]

theorem orchard_outputs_fit :
    ∃ s table w,
      Document.depict orchardSetting .output orchard Document.noComponents = (.ok s, table) ∧
      orchard.validate orchardSetting.library.patterns orchardSetting.library.definitions 3
        (some orchardInput) = .ok (some w) ∧
      s.Fits table.definitions w := by
  have succeeds : (Document.depict orchardSetting .output orchard
      Document.noComponents).1.isOk = true := by decide +kernel
  have accepts :
      (orchard.validate orchardSetting.library.patterns orchardSetting.library.definitions 3
      (some orchardInput)).isOk = true := by decide +kernel
  rcases depicted : Document.depict orchardSetting .output orchard Document.noComponents with
    ⟨_ | s, table⟩
  · rw [depicted] at succeeds
    cases succeeds
  · match made :
      orchard.validate orchardSetting.library.patterns orchardSetting.library.definitions 3
        (some orchardInput) with
    | .error cause =>
      rw [made] at accepts
      cases accepts
    | .ok none => exact absurd made (Node.validate_present _ _ _)
    | .ok (some w) =>
      refine ⟨s, table, w, rfl, rfl, documented_outputs_fit orchardSetting orchard ?_ ?_ ?_ s table
        depicted 3 (some orchardInput) w made⟩
      · simp [orchard, Node.of, Node.shows_mk, Kind.Shows, Kind.outputParts, Kind.children]
      · simp [orchardSetting, Node.of, Node.shows_mk, Kind.Shows, Kind.outputParts, Kind.children,
          Fields.names, Node.opens]
      · have targets (a : String)
            (mem : orchardSetting.Mentions [(orchard, .output)] a) : a = "Tree" := by
          simp [Setting.Mentions, orchardSetting, orchard, Node.of, Node.refers_mk,
            Kind.children] at mem
          exact mem.symm
        intro a b left right _
        rw [targets a left, targets b right]

end EventContracts
