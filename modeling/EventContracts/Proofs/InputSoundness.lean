import EventContracts.Proofs.OutputSoundness

/-! What validation accepts fits what the documented view of input says, for schemas in which no
layer coerces what it is given. Results that are put together, values that are prepared first and
fallbacks are accepted beyond what their views say; a record of listed keys accepts values without
some of the keys. A pipeline is shown by its first schema, and a transform by what it is applied
to, so neither matters for what is accepted. -/

namespace EventContracts

open SchemaObject

namespace Kind

variable {α : Type}

/-- The parts of a layer whose views make up its input view. -/
def inputParts : Kind α → List α
  | record _ value => [value]
  | pipeline input _ => [input]
  | function .. => []
  | kind => kind.children

lemma inputParts_subset (kind : Kind α) : kind.inputParts ⊆ kind.children := by
  cases kind <;> simp [inputParts, children]

end Kind

/-- Whether the input view of a layer allows what the layer accepts. -/
def Kind.Allows (kind : Kind Node) : Prop :=
  kind.coerces = false ∧ match kind with
    | intersection .. => False
    | nullable _ => False
    | fallback .. => False
    | preprocess .. => False
    | record key _ => key.listedKeys?.getD [] = []
    | _ => True

/-- Whether the input views of all layers that a view is made of allow what they accept. -/
inductive Node.Allows : Node → Prop where
  | mk {kind : Kind Node} {notes : Notes} (layer : kind.Allows)
      (parts : ∀ part ∈ kind.inputParts, part.Allows) : Allows (.mk kind notes)

lemma Node.allows_mk {kind : Kind Node} {notes : Notes} :
    (Node.mk kind notes).Allows ↔ kind.Allows ∧ ∀ part ∈ kind.inputParts, part.Allows :=
  ⟨fun ⟨layer, parts⟩ => ⟨layer, parts⟩, fun ⟨layer, parts⟩ => ⟨layer, parts⟩⟩

lemma Node.Allows.not_coerces {node : Node} (allows : node.Allows) : node.coerces = false := by
  obtain ⟨layer, -⟩ := allows
  exact layer.1

variable {components : Fields SchemaObject} {v w : Json}

lemma StringChecks.validate_taken {patterns : PatternReader} {checks : StringChecks}
    (plain : checks.coerce = false) (h : checks.validate patterns (some v) = .ok w) : w = v := by
  obtain ⟨text, rfl, subject, -⟩ := validate_ok h
  cases v with
  | string s => rw [Except.ok.inj subject]
  | _ =>
    simp only [StringChecks.subject, plain] at subject
    cases subject

/-- A number is given as it is, or not at all; what is checked is the nearest double. -/
lemma NumberChecks.validate_taken {checks : NumberChecks} (plain : checks.coerce = false)
    (h : checks.validate (some v) = .ok w) :
    ∃ n d, v = .number n ∧ n.toDouble? = some d ∧ (checks.whole → d.isWhole) := by
  rw [validate] at h
  obtain ⟨d, subject, h⟩ := exists_of_bind h
  have whole : checks.whole → d.isWhole := by
    intro whole
    dsimp only at h
    split at h
    · cases h
    · rename_i passes
      simpa [whole] using passes
  obtain ⟨read?, given, read⟩ := exists_of_bind subject
  have found : read? = some d := by
    cases read? with
    | none => cases read
    | some _ => rw [Except.ok.inj read]
  cases v with
  | number n => exact ⟨n, d, rfl, (Except.ok.inj given).trans found, whole⟩
  | _ =>
    simp only [plain] at given
    cases given

lemma Number.isIntegral_of_toDouble? {n : Number} {d : Double} (read : n.toDouble? = some d)
    (whole : d.isWhole) : n.isIntegral := by
  cases n with
  | whole _ => rfl
  | double _ =>
    obtain rfl := Option.some.inj read
    exact whole

lemma NumberChecks.taken_fits {checks : NumberChecks} (plain : checks.coerce = false)
    (h : checks.validate (some v) = .ok w) : Fits components checks.toSchema v := by
  obtain ⟨n, d, rfl, read, whole⟩ := validate_taken plain h
  exact NumberChecks.fits fun isWhole => Number.isIntegral_of_toDouble? read (whole isWhole)

lemma validateBigint_taken (h : validateBigint false (some v) = .ok w) : w = v := by
  cases v with
  | number n =>
    cases n with
    | whole n => exact (Except.ok.inj h).symm
    | double d => cases h
  | _ => cases h

lemma validateBoolean_taken (h : validateBoolean false (some v) = .ok w) : w = v := by
  cases v with
  | bool b => exact (Except.ok.inj h).symm
  | _ => cases h

lemma validateDate_taken (h : validateDate false (some v) = .ok w) : ∃ s, v = .string s := by
  cases v with
  | string s => exact ⟨s, rfl⟩
  | number n => cases n <;> cases h
  | _ => cases h

/-- What is accepted of the items of a list. -/
lemma collectItems_taken {f : Json → Outcome} {position : Nat} {values items : List Json}
    (h : collectItems f position values = .ok items) : ∀ v ∈ values, ∃ made, f v = .ok made := by
  induction values generalizing position items with
  | nil => exact nofun
  | cons v values ih =>
    obtain ⟨made, first, h⟩ := exists_of_bind h
    obtain ⟨more, rest, -⟩ := exists_of_bind h
    intro other mem
    rcases List.mem_cons.mp mem with rfl | mem
    · exact ⟨made, ok_of_under first⟩
    · exact ih rest other mem

lemma recordEntries_taken {key value : Option Json → Outcome} {entries found result : Fields Json}
    (h : entries.foldlM (recordEntry key value) found = .ok result) :
    ∀ entry ∈ entries, ∃ made, value (some entry.2) = .ok made := by
  induction entries generalizing found with
  | nil => exact nofun
  | cons entry entries ih =>
    rw [List.foldlM_cons] at h
    obtain ⟨next, first, rest⟩ := exists_of_bind h
    intro other mem
    rcases List.mem_cons.mp mem with rfl | mem
    · unfold recordEntry at first
      obtain ⟨_, -, first⟩ := exists_of_bind first
      obtain ⟨made, accepted, -⟩ := exists_of_bind first
      exact ⟨made, ok_of_under accepted⟩
    · exact ih rest other mem

/-- Whether a node accepts a value that is there. -/
def Node.Takes (patterns : PatternReader) (deref : String → Option Json → Outcome) (node : Node)
    (v : Json) : Prop :=
  ∃ made, node.validateWith patterns deref (some v) = .ok made

/-- Whether a node accepts a value that is there, among named schemas. -/
def Library.Takes (library : Library) (node : Node) (v : Json) : Prop :=
  ∃ made, library.validate node (some v) = .ok made

lemma Library.takes_iff {library : Library} {node : Node} :
    library.Takes node v ↔ node.Takes library.patterns (library.follow library.depth) v := by
  rw [Library.Takes, Node.Takes, Library.validate, Node.validate_eq]

namespace Node

variable {patterns : PatternReader} {deref : String → Option Json → Outcome} {notes : Notes}

lemma validateItems_taken {nodes : List Node} {position : Nat} {values items : List Json}
    (enough : nodes.length ≤ values.length)
    (h : validateItems patterns deref nodes position values = .ok items) :
    List.Forall₂ (Takes patterns deref) nodes (values.take nodes.length) := by
  induction nodes generalizing position values items with
  | nil => exact .nil
  | cons node nodes ih =>
    cases values with
    | nil => cases enough
    | cons v values =>
      obtain ⟨made, first, h⟩ := exists_of_bind h
      obtain ⟨more, rest, -⟩ := exists_of_bind h
      exact .cons ⟨made, ok_of_under first⟩ (ih (Nat.le_of_succ_le_succ enough) rest)

lemma validateShape_taken {shape : List (String × Node)} {fields found : Fields Json}
    (h : validateShape patterns deref shape fields = .ok found) :
    ∀ part ∈ shape, ∃ made, validateWith patterns deref part.2 (Fields.get? part.1 fields) =
      .ok made := by
  induction shape generalizing found with
  | nil => exact nofun
  | cons part shape ih =>
    obtain ⟨made, first, h⟩ := exists_of_bind h
    obtain ⟨more, rest, -⟩ := exists_of_bind h
    intro other mem
    rcases List.mem_cons.mp mem with rfl | mem
    · exact ⟨made, ok_of_under first⟩
    · exact ih rest other mem

lemma validateFirst_taken {nodes : List Node} {made : Option Json}
    (h : validateFirst patterns deref nodes (some v) = .ok made) :
    ∃ node ∈ nodes, node.Takes patterns deref v := by
  induction nodes with
  | nil => cases h
  | cons node nodes ih =>
    rw [validateFirst] at h
    split at h
    · obtain ⟨other, mem, takes⟩ := ih h
      exact ⟨other, List.mem_cons_of_mem _ mem, takes⟩
    · exact ⟨node, List.mem_cons_self, made, h⟩

lemma takes_literal {value : Json} (h : Takes patterns deref (.mk (.literal value) notes) v) :
    v.same value := by
  obtain ⟨made, h⟩ := h
  cases makes_of_validateWith h with
  | literal same => exact same

lemma takes_choice {values : List String}
    (h : Takes patterns deref (.mk (.choice values) notes) v) :
    ∃ text ∈ values, v = .string text := by
  obtain ⟨made, h⟩ := h
  cases makes_of_validateWith h with
  | choice listed => exact ⟨_, listed, rfl⟩

lemma takes_array {item : Node} {least most : Option Nat}
    (h : Takes patterns deref (.mk (.array item least most) notes) v) :
    ∃ items, v = .array items ∧ (∀ n, least = some n → n ≤ items.length) ∧
      (∀ n, most = some n → items.length ≤ n) ∧ ∀ part ∈ items, item.Takes patterns deref part := by
  obtain ⟨made, h⟩ := h
  cases makes_of_validateWith h with
  | array counted each =>
    exact ⟨_, rfl, (checkLength_ok counted).1, (checkLength_ok counted).2,
      collectItems_taken each⟩

/-- What is accepted as a tuple: the items by position, and then those of the rest. -/
lemma takes_tuple {nodes : List Node} {rest : Option Node}
    (h : Takes patterns deref (.mk (.tuple nodes rest) notes) v) :
    ∃ first more, v = .array (first ++ more) ∧ List.Forall₂ (Takes patterns deref) nodes first ∧
      (rest = none → more = []) ∧
        ∀ node, rest = some node → ∀ part ∈ more, node.Takes patterns deref part := by
  obtain ⟨made, h⟩ := h
  cases makes_of_validateWith h with
  | @tuple _ values _ count each =>
    have taken := validateItems_taken (Nat.le_of_eq count) each
    rw [count, List.take_length] at taken
    exact ⟨values, [], by rw [List.append_nil], taken, fun _ => rfl, nofun⟩
  | @longTuple _ _ values _ _ enough each further =>
    refine ⟨values.take nodes.length, values.drop nodes.length,
      by rw [List.take_append_drop], validateItems_taken enough each, nofun, ?_⟩
    rintro node ⟨⟩
    exact collectItems_taken further

lemma takes_object {shape : List (String × Node)}
    (h : Takes patterns deref (.mk (.object shape) notes) v) :
    ∃ fields, v = .object fields ∧ ∀ part ∈ shape, ∃ made,
      validateWith patterns deref part.2 (Fields.get? part.1 fields) = .ok made := by
  obtain ⟨made, h⟩ := h
  cases makes_of_validateWith h with
  | object shaped => exact ⟨_, rfl, validateShape_taken shaped⟩

lemma takes_record {key value : Node} (h : Takes patterns deref (.mk (.record key value) notes) v) :
    ∃ fields, v = .object fields ∧ ∀ field ∈ fields, value.Takes patterns deref field.2 := by
  obtain ⟨made, h⟩ := h
  cases makes_of_validateWith h with
  | record entries => exact ⟨_, rfl, recordEntries_taken entries⟩

end Node

namespace Document

open Depicter

variable {setting : Setting} {table : AliasTable SchemaObject} {depth : Nat}

variable (setting table depth) in
/-- Whether every value that a node accepts, with references followed to a depth, fits its input
view. -/
def Allowing (node : Node) : Prop :=
  ∀ s, depicter.replay setting table (walk .input node) = .ok s → ∀ v,
    node.Takes setting.library.patterns (setting.library.follow depth) v →
      Fits table.definitions s v

lemma taken_positions {nodes : List Node} {views : List SchemaObject} {items : List Json}
    (part : ∀ node ∈ nodes, Allowing setting table depth node)
    (shown : List.Forall₂ (fun node s => depicter.replay setting table (walk .input node) = .ok s)
      nodes views)
    (taken : List.Forall₂ (Node.Takes setting.library.patterns (setting.library.follow depth))
      nodes items) :
    List.Forall₂ (Fits table.definitions) views items := by
  induction shown generalizing items with
  | nil =>
    cases taken
    exact .nil
  | cons view _ ih =>
    cases taken with
    | cons first rest =>
      exact .cons (part _ List.mem_cons_self _ view _ first)
        (ih (fun node mem => part node (List.mem_cons_of_mem _ mem)) rest)

lemma taken_member {nodes : List Node} {views : List SchemaObject}
    (part : ∀ node ∈ nodes, Allowing setting table depth node)
    (shown : List.Forall₂ (fun node s => depicter.replay setting table (walk .input node) = .ok s)
      nodes views) {node : Node} (mem : node ∈ nodes)
    (takes : node.Takes setting.library.patterns (setting.library.follow depth) v) :
    ∃ view ∈ views, Fits table.definitions view v := by
  induction shown with
  | nil => cases mem
  | cons view _ ih =>
    rcases List.mem_cons.mp mem with rfl | mem
    · exact ⟨_, List.mem_cons_self, part _ List.mem_cons_self _ view _ takes⟩
    · obtain ⟨other, inside, fits⟩ := ih (fun n mem => part n (List.mem_cons_of_mem _ mem)) mem
      exact ⟨other, List.mem_cons_of_mem _ inside, fits⟩

/-- What is accepted as an object: the fields that the shape knows are accepted by its nodes, and
those that are required are there, since their nodes refuse an absent value. -/
lemma taken_shape {shape : List (String × Node)} {properties : List (String × SchemaObject)}
    {required : List String} {fields : Fields Json}
    (part : ∀ node ∈ shape.map Prod.snd, node.Allows ∧ Allowing setting table depth node)
    (shown : ∀ property ∈ properties, ∃ node, (property.1, node) ∈ shape ∧
      depicter.replay setting table (walk .input node) = .ok property.2)
    (needed : ∀ key ∈ required, ∃ node, (key, node) ∈ shape ∧
      depicter.replay setting table (Walk.fieldOptional .input node) = .ok false)
    (taken : ∀ part ∈ shape, ∃ made, Node.validateWith
      setting.library.patterns (setting.library.follow depth) part.2 (Fields.get? part.1 fields) =
        .ok made) :
    Fits table.definitions { ofType "object" with
      properties := some properties
      required := if required.isEmpty then none else some required } (.object fields) := by
  refine fits_object (fun property mem v present => ?_) fun key mem => ?_
  · obtain ⟨node, inside, view⟩ := shown property mem
    obtain ⟨made, takes⟩ := taken _ inside
    rw [present] at takes
    exact (part node (List.mem_map_of_mem inside)).2 _ view v ⟨made, takes⟩
  · obtain ⟨node, inside, asked⟩ := needed key mem
    by_contra absent
    obtain ⟨made, takes⟩ := taken _ inside
    rw [Fields.get?_eq_none.mpr absent, ← Node.validate_eq] at takes
    rcases replay_required asked with coerces | ⟨issue, refused⟩
    · rw [(part node (List.mem_map_of_mem inside)).1.not_coerces] at coerces
      cases coerces
    · have := Node.validate_agree takes refused (by simp) (by simp)
      cases this

/-- What a layer accepts fits its view, when what its parts accept fits theirs. -/
lemma taken_layer {kind : Kind Node} {notes : Notes} {view : SchemaObject} {v : Json}
    (allows : (Node.mk kind notes).Allows)
    (part : ∀ node ∈ kind.inputParts, Allowing setting table depth node)
    (reference : ∀ key target name, kind = .reference key target →
      table.nameOf? (setting.aliasKey .input (setting.resolve target)) = some name → ∀ v,
      (∃ made, setting.library.follow depth target (some v) = .ok made) →
        Fits table.definitions (.refer (componentPath name)) v)
    (drawn : Layer setting table .input notes kind view)
    (takes : (Node.mk kind notes).Takes setting.library.patterns (setting.library.follow depth) v) :
    Fits table.definitions view v := by
  obtain ⟨⟨plain, layer⟩, parts⟩ := Node.allows_mk.mp allows
  have inner {node : Node} (mem : node ∈ kind.inputParts) {view : SchemaObject}
      (shown : Viewed setting table .input node view)
      (takes : node.Takes setting.library.patterns (setting.library.follow depth) v) :
      Fits table.definitions view v := part node mem view shown v takes
  obtain ⟨made, accepted⟩ := id takes
  cases drawn with
  | string =>
    cases Node.makes_of_validateWith accepted with
    | string valid =>
      obtain rfl := StringChecks.validate_taken plain valid
      exact StringChecks.validate_fits valid
  | number =>
    cases Node.makes_of_validateWith accepted with
    | number valid => exact NumberChecks.taken_fits plain valid
  | @bigint coerce =>
    obtain rfl : coerce = false := plain
    cases Node.makes_of_validateWith accepted with
    | bigint valid =>
      obtain rfl := validateBigint_taken valid
      exact validateBigint_fits valid
  | @boolean coerce =>
    obtain rfl : coerce = false := plain
    cases Node.makes_of_validateWith accepted with
    | boolean valid =>
      obtain rfl := validateBoolean_taken valid
      exact validateBoolean_fits valid
  | @date coerce =>
    obtain rfl : coerce = false := plain
    cases Node.makes_of_validateWith accepted with
    | date valid =>
      obtain ⟨text, rfl⟩ := validateDate_taken valid
      exact ofType_fits rfl
  | null =>
    cases Node.makes_of_validateWith accepted with
    | null => exact ofType_fits rfl
  | any | unknown => exact any_fits
  | literal => exact literal_fits (Node.takes_literal takes)
  | choice =>
    obtain ⟨text, listed, rfl⟩ := Node.takes_choice takes
    exact choice_fits listed
  | @array item _ _ _ shown =>
    obtain ⟨items, rfl, long, short, each⟩ := Node.takes_array takes
    exact fits_array long short fun other mem =>
      part item (by simp [Kind.inputParts, Kind.children]) _ shown _ (each other mem)
  | tuple shown =>
    obtain ⟨first, more, rfl, taken, closed, -⟩ := Node.takes_tuple takes
    have positions := taken_positions (fun node mem =>
      part node (by simp [Kind.inputParts, Kind.children, mem])) shown taken
    exact fits_tuple positions (fun _ => closed rfl) fun s eq => by cases eq
  | @longTuple _ _ rest _ shown further =>
    obtain ⟨first, more, rfl, taken, -, each⟩ := Node.takes_tuple takes
    have positions := taken_positions (fun node mem =>
      part node (by simp [Kind.inputParts, Kind.children, mem])) shown taken
    refine fits_tuple positions (fun eq => by cases eq) ?_
    intro s eq other mem
    obtain rfl := Further.schema.inj eq
    exact part rest (by simp [Kind.inputParts, Kind.children]) _ further _ (each _ rfl other mem)
  | object shown =>
    obtain ⟨fields, rfl, taken⟩ := Node.takes_object takes
    exact taken_shape (fun node mem => ⟨parts node mem, part node mem⟩)
      (replay_walkShape shown).1 (replay_walkShape shown).2 taken
  | @record _ value _ _ shown =>
    obtain ⟨fields, rfl, each⟩ := Node.takes_record takes
    exact fits_record fun field mem =>
      part value (by simp [Kind.inputParts]) _ shown _ (each field mem)
  | emptyRecord _ =>
    obtain ⟨fields, rfl, -⟩ := Node.takes_record takes
    exact ofType_fits rfl
  | listedRecord listed _ =>
    simp only [listed, Option.getD_some] at layer
    cases layer
  | union shown =>
    obtain ⟨node, mem, takes⟩ := Node.validateFirst_taken accepted
    obtain ⟨view, mem, fits⟩ := taken_member part shown mem takes
    exact fits_union mem fits none
  | taggedUnion shown =>
    obtain ⟨node, mem, takes⟩ := Node.validateFirst_taken accepted
    obtain ⟨view, mem, fits⟩ := taken_member part shown mem takes
    exact fits_union mem fits _
  | optional shown | readonly shown | branded shown =>
    exact inner (by simp [Kind.inputParts, Kind.children]) shown ⟨made, accepted⟩
  | default shown =>
    exact (inner (by simp [Kind.inputParts, Kind.children]) shown ⟨made, accepted⟩).withDefault _
  | refine shown | untried shown _ =>
    obtain ⟨parsed, first, -⟩ := exists_of_bind accepted
    exact inner (by simp [Kind.inputParts, Kind.children]) shown ⟨parsed, first⟩
  | tried out _ _ _ => cases out
  | @pipeline input _ _ shown =>
    obtain ⟨parsed, first, -⟩ := exists_of_bind accepted
    exact part input (List.mem_singleton_self _) _ shown _ ⟨parsed, first⟩
  | reference named => exact reference _ _ _ rfl named v ⟨made, accepted⟩
  | intersection _ _ | nullable _ | fallback _ | preprocess _ => exact layer.elim

variable (setting table depth) in
/-- Whether everything that references to some targets accept, followed to a depth, fits the
component of the reference. -/
def Admits (asked : String → Prop) : Prop :=
  ∀ target name, asked target →
    table.nameOf? (setting.aliasKey .input (setting.resolve target)) = some name → ∀ v,
    (∃ made, setting.library.follow depth target (some v) = .ok made) →
      Fits table.definitions (.refer (componentPath name)) v

variable {asked : String → Prop}

/-- What a node accepts fits its view, when what its references accept fits the components. -/
lemma allowing_of_admits (admits : Admits setting table depth asked) {node : Node}
    (allows : node.Allows) (inScope : ∀ target, node.Refers target → asked target) :
    Allowing setting table depth node := by
  induction node using Node.induct with
  | step kind notes ih =>
    intro s shown v takes
    obtain ⟨-, parts⟩ := Node.allows_mk.mp allows
    have part : ∀ node ∈ kind.inputParts, Allowing setting table depth node := by
      intro node mem
      have child := kind.inputParts_subset mem
      exact ih node child (parts node mem) fun target refers => inScope target (.child child refers)
    have reference : ∀ key target name, kind = .reference key target →
        table.nameOf? (setting.aliasKey .input (setting.resolve target)) = some name → ∀ v,
        (∃ made, setting.library.follow depth target (some v) = .ok made) →
          Fits table.definitions (.refer (componentPath name)) v := by
      rintro key target name rfl
      exact admits target name (inScope target .here)
    obtain ⟨view, drawn, annotated⟩ := layer_of_replay shown
    have fits := taken_layer allows part reference drawn takes
    rcases replay_annotate annotated with rfl | ⟨nullable, description, examples, rfl⟩
    · exact fits
    · exact fits.overlay nullable description examples

/-- The induction on the depth: a reference accepts what its schema accepts at the depth below. -/
lemma admits_references (steady : depicter.Steady setting asked table)
    (closed : setting.Closed asked) (distinguishes : setting.Distinguishes asked)
    (definitions : ∀ field ∈ setting.library.definitions, field.2.Allows) (depth : Nat) :
    Admits setting table depth asked := by
  induction depth with
  | zero =>
    rintro target name - - v ⟨made, accepted⟩
    cases accepted
  | succ depth ih =>
    rintro target name mem named v ⟨made, accepted⟩
    obtain ⟨entry, found, rfl⟩ := AliasTable.get?_of_nameOf? named
    have allows : (setting.resolve target).Allows := by
      rcases setting.resolve_cases target with ⟨field, inside, same⟩ | ⟨unknown, custom⟩
      · rw [same]
        exact definitions field inside
      · rw [custom]
        exact .mk ⟨rfl, trivial⟩ nofun
    simp only [Node.follow] at accepted
    rw [Node.validate_eq] at accepted
    exact .reference rfl (steady.numbered.get?_definitions found)
      (allowing_of_admits ih allows (closed target mem) _
        (steady.replays distinguishes mem found) v ⟨made, accepted⟩)

end Document

/-- The documentation never forbids a value that validation accepts: it fits the documented view of
input, with the components that the view was made with, for every schema whose layers allow what
they accept, over definitions of the same sort, and references followed to any depth. -/
theorem documented_inputs_fit (setting : Setting) (node : Node) (allows : node.Allows)
    (definitions : ∀ field ∈ setting.library.definitions, field.2.Allows)
    (distinguishes : setting.Distinguishes (setting.Mentions [(node, .input)])) (s : SchemaObject)
    (table : AliasTable SchemaObject)
    (depicted : Document.depict setting .input node Document.noComponents = (.ok s, table))
    (depth : Nat) (v : Json) (made : Option Json)
    (accepted : node.validate setting.library.patterns setting.library.definitions depth (some v) =
      .ok made) :
    s.Fits table.definitions v := by
  have closed := setting.closed_mentions [(node, .input)]
  have inScope : ∀ target, node.Refers target → setting.Mentions [(node, .input)] target :=
    fun target refers => .inl ⟨_, List.mem_singleton_self _, refers⟩
  obtain ⟨-, steady, replayed⟩ := Depicter.Steady.depict (.empty Document.depicter setting _)
    Document.uniform closed inScope depicted
  have admits := Document.admits_references steady closed distinguishes definitions depth
  rw [Node.validate_eq] at accepted
  exact Document.allowing_of_admits admits allows inScope s (replayed table (.refl table)) v
    ⟨made, accepted⟩

/-- Chapters with a title, a count of pages that is turned into text, and further chapters. -/
def chapterSetting : Setting where
  library := {
    definitions := [("Chapter", .of (.object [
      ("title", .of (.string { minLength := some 1 })),
      ("pages", .of (.default (.of (.effect (.of (.number { whole := true }))
        (.transform .toText))) (.whole 1))),
      ("chapters", .of (.optional (.of
        (.array (.of (.reference "chapter" "Chapter")) none none))))]))] }
  fingerprint node := node.kindName

def chapters : Node :=
  .of (.tuple [.of (.pipeline (.of (.string {})) (.of (.number { coerce := true })))]
    (some (.of (.reference "chapter" "Chapter"))))

/-- A number in text, and a chapter in a chapter. -/
def chaptersInput : Json :=
  .array [.string "2", .object [("title", .string "Roots"), ("chapters", .array [
    .object [("title", .string "Bark"), ("pages", .whole 7), ("colour", .null)]])]]

theorem chapters_inputs_fit :
    ∃ s table made,
      Document.depict chapterSetting .input chapters Document.noComponents = (.ok s, table) ∧
      chapters.validate chapterSetting.library.patterns chapterSetting.library.definitions 3
        (some chaptersInput) = .ok made ∧
      s.Fits table.definitions chaptersInput := by
  have succeeds : (Document.depict chapterSetting .input chapters
      Document.noComponents).1.isOk = true := by decide +kernel
  have accepts :
      (chapters.validate chapterSetting.library.patterns chapterSetting.library.definitions 3
      (some chaptersInput)).isOk = true := by decide +kernel
  rcases depicted : Document.depict chapterSetting .input chapters Document.noComponents with
    ⟨_ | s, table⟩
  · rw [depicted] at succeeds
    cases succeeds
  · match accepted :
      chapters.validate chapterSetting.library.patterns chapterSetting.library.definitions 3
        (some chaptersInput) with
    | .error cause =>
      rw [accepted] at accepts
      cases accepts
    | .ok made =>
      refine ⟨s, table, made, rfl, rfl, documented_inputs_fit chapterSetting chapters ?_ ?_ ?_ s
        table depicted 3 chaptersInput made accepted⟩
      · simp [chapters, Node.of, Node.allows_mk, Kind.Allows, Kind.coerces, Kind.inputParts,
          Kind.children]
      · simp [chapterSetting, Node.of, Node.allows_mk, Kind.Allows, Kind.coerces, Kind.inputParts,
          Kind.children]
      · have targets (a : String)
            (mem : chapterSetting.Mentions [(chapters, .input)] a) : a = "Chapter" := by
          simp [Setting.Mentions, chapterSetting, chapters, Node.of, Node.refers_mk,
            Kind.children] at mem
          exact mem.symm
        intro a b left right _
        rw [targets a left, targets b right]

end EventContracts
