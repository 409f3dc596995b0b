import EventContracts.Artifacts
import EventContracts.Proofs.DepictionReplay
import EventContracts.Proofs.DocumentedWalks
import EventContracts.Proofs.TypedWalks
import Mathlib.Data.Fintype.EquivFin

/-! Nothing that is generated refers to something that is not there. A view is replayed from the
table that it was made with, and what is replayed does not change under a renaming that keeps the
names of that table; so a view mentions no other names. Assembly puts views together and declares
the names that it mentions itself. -/

namespace EventContracts

/-- A text outside a list can be renamed without touching the list. -/
lemma exists_moving {kept : List String} {s : String} (outside : s ∉ kept) :
    ∃ f : String → String, Function.Injective f ∧ (∀ t ∈ kept, f t = t) ∧ f s ≠ s := by
  obtain ⟨other, fresh⟩ := Infinite.exists_notMem_finset (s :: kept).toFinset
  rw [List.mem_toFinset, List.mem_cons, not_or] at fresh
  refine ⟨Equiv.swap s other, (Equiv.swap s other).injective, fun t mem => ?_, ?_⟩
  · exact Equiv.swap_apply_of_ne_of_ne (fun e => outside (e ▸ mem)) fun e => fresh.2 (e ▸ mem)
  · rw [Equiv.swap_apply_left]
    exact fresh.1

namespace Depicter

variable {U : Type} {depicter : Depicter U} {setting : Setting} {table : AliasTable U}

/-- What is replayed does not change when the names of the table are kept. -/
lemma replay_fixed {asked : String → Prop} {g : U → U} {w : Walk U U} {view : U}
    (alike : Walk.Alike asked g g w w)
    (kept : ∀ name ∈ table.names, g (depicter.refer name) = depicter.refer name)
    (replayed : depicter.replay setting table w = .ok view) : g view = view := by
  refine (replay_alike alike (fun key name name' named named' => ?_) replayed replayed).symm
  obtain rfl := Option.some.inj (named.symm.trans named')
  exact (kept name (AliasTable.name_mem_names named)).symm

/-- Every definition of a steady table is replayed. -/
lemma Steady.definition {asked : String → Prop} (steady : depicter.Steady setting asked table)
    {field : String × U} (mem : field ∈ table.definitions) :
    ∃ target direction,
      depicter.replay setting table (depicter.walk (setting.resolve target) direction) =
        .ok field.2 := by
  obtain ⟨⟨key, entry⟩, inside, rfl⟩ := List.mem_map.mp mem
  obtain ⟨target, direction, -, -, replayed⟩ := steady.settled table (.refl table) key entry
    (Fields.get?_of_mem steady.numbered.keys_nodup inside) (steady.complete _ inside)
  exact ⟨target, direction, replayed⟩

end Depicter

lemma AliasTable.names_definitions {α : Type} (table : AliasTable α) :
    Fields.names table.definitions = table.names := by
  simp [Fields.names, definitions, names]

lemma AliasTable.Extends.names_subset {α : Type} {table later : AliasTable α}
    (ext : table.Extends later) (numbered : table.Numbered) : table.names ⊆ later.names := by
  intro name mem
  obtain ⟨key, named⟩ := exists_key_of_mem_names numbered mem
  exact name_mem_names (ext.kept key name named)

namespace Document

/-- Whether all references of a schema, at any depth, are to components of a table. -/
def Within (table : AliasTable SchemaObject) (s : SchemaObject) : Prop :=
  ∀ path, s.Carries path → ∃ name ∈ table.names, path = SchemaObject.componentPath name

variable {setting : Setting} {table later : AliasTable SchemaObject}

lemma Within.mono {s : SchemaObject} (within : Within table s) (more : table.names ⊆ later.names) :
    Within later s := by
  intro path carries
  obtain ⟨name, mem, eq⟩ := within path carries
  exact ⟨name, more mem, eq⟩

lemma within_of_replay {node : Node} {direction : Direction} {s : SchemaObject}
    (replayed : depicter.replay setting table (depicter.walk node direction) = .ok s) :
    Within table s := by
  intro path carries
  by_contra outside
  have away : path ∉ table.names.map SchemaObject.componentPath := by
    intro mem
    obtain ⟨name, inside, eq⟩ := List.mem_map.mp mem
    exact outside ⟨name, inside, eq.symm⟩
  obtain ⟨f, inj, kept, moved⟩ := exists_moving away
  refine moved (carries.fixed (Depicter.replay_fixed (alike_walk inj node direction) ?_ replayed))
  intro name mem
  simp [depicter, SchemaObject.refer, SchemaObject.rename_eq, kept _ (List.mem_map_of_mem mem)]

end Document

namespace Draft

/-- A depiction changes nothing in the draft but the components. -/
lemma depicting_made {α : Type} {draft later : Draft} {view : Document.View α}
    {result : Except Halt α} (h : depicting view draft = (result, later)) :
    ∃ components, view draft.components = (result, components) ∧
      later = { draft with components := components } := by
  obtain ⟨first, rfl⟩ := Prod.mk.inj h
  exact ⟨_, Prod.ext first rfl, rfl⟩

/-- What assembly keeps: the components are steady, and the messages refer to nothing else. -/
structure Sound (setting : Setting) (draft : Draft) : Prop where
  steady : Document.depicter.Steady setting (fun _ => True) draft.components
  messages : ∀ channel ∈ draft.channels, ∀ message ∈ channel.2.messages,
    Document.Within draft.components message.2.payload

variable {setting : Setting} {draft later : Draft}

lemma Sound.empty : Sound setting {} :=
  ⟨.empty Document.depicter setting _, fun _ mem => absurd mem List.not_mem_nil⟩

/-- A depiction keeps all messages within the components, and its result is within them. -/
lemma Sound.depicting (sound : draft.Sound setting) {direction : Direction} {node : Node}
    {s : SchemaObject}
    (h : Draft.depicting (Document.depict setting direction node) draft = (.ok s, later)) :
    later.Sound setting ∧ Document.Within later.components s ∧
      draft.components.names ⊆ later.components.names := by
  obtain ⟨components, made, rfl⟩ := depicting_made h
  obtain ⟨ext, steady, replayed⟩ := sound.steady.depict Document.uniform
    (fun _ _ _ _ => trivial) (fun _ _ => trivial) made
  have more := ext.names_subset sound.steady.numbered
  exact ⟨⟨steady, fun channel mem message inside =>
    (sound.messages channel mem message inside).mono more⟩,
    Document.within_of_replay (replayed _ (.refl _)), more⟩

/-- Whether the messages of a channel in the making refer to components only. -/
def Carried (messages : Fields Message) (draft : Draft) : Prop :=
  ∀ message ∈ messages, Document.Within draft.components message.2.payload

lemma Carried.set {messages : Fields Message} (carried : Carried messages draft)
    (more : draft.components.names ⊆ later.components.names) (message : Message)
    (within : Document.Within later.components message.payload) (id : String) :
    Carried (Fields.set id message messages) later := by
  intro field mem
  rcases Fields.mem_of_mem_set mem with rfl | mem
  · exact within
  · exact (carried field mem).mono more

lemma addEvent_sound {ns : Namespace} {channelId : String} {messages messages' : Fields Message}
    {event : Event} (sound : draft.Sound setting) (carried : Carried messages draft)
    (h : addEvent setting ns channelId messages event draft = (.ok messages', later)) :
    later.Sound setting ∧ Carried messages' later := by
  rw [addEvent] at h
  obtain ⟨payload, middle, made, h⟩ := bind_ok h
  obtain ⟨sound, within, more⟩ := sound.depicting made
  replace carried := carried.set more {
    name := event.name, title := event.name, summary := event.description, payload := payload,
    examples := event.examples } within (messageId event)
  cases acked : event.ack with
  | none =>
    rw [acked] at h
    obtain ⟨⟩ := h
    exact ⟨⟨sound.steady, sound.messages⟩, carried⟩
  | some ack =>
    rw [acked] at h
    obtain ⟨payload, last, made, h⟩ := bind_ok h
    obtain ⟨sound, within, more⟩ := sound.depicting made
    obtain ⟨⟩ := h
    exact ⟨⟨sound.steady, sound.messages⟩, carried.set more _ within (ackId event)⟩

lemma addNamespace_sound {ns : Namespace} (sound : draft.Sound setting)
    (h : addNamespace setting ns draft = (.ok ⟨⟩, later)) : later.Sound setting := by
  rw [addNamespace] at h
  obtain ⟨messages, middle, made, h⟩ := bind_ok h
  obtain ⟨sound, carried⟩ := foldlM_ok
    (fun messages draft => draft.Sound setting ∧ Carried messages draft)
    (fun _ _ _ _ _ here added => addEvent_sound here.1 here.2 added)
    ⟨sound, fun _ mem => absurd mem List.not_mem_nil⟩ made
  obtain ⟨⟩ := h
  refine ⟨sound.steady, ?_⟩
  intro channel mem
  rcases Fields.mem_of_mem_set mem with rfl | mem
  · exact carried
  · exact sound.messages channel mem

end Draft

namespace TypeScript

/-- Whether a declaration mentions a name, at any depth. -/
def Declaration.Mentions (name : String) : Declaration → Prop
  | typeAlias _ type => type.Mentions name
  | interface _ members => ∃ member ∈ members, member.type.Mentions name

/-- Whether a name is that of an alias, or is declared as one. -/
def Draft.Knows (draft : Draft) (name : String) : Prop :=
  name = "Date" ∨ name ∈ draft.aliases.names ∨ ∃ type, .typeAlias name type ∈ draft.declarations

variable {setting : Setting} {style : OptionalStyle}

lemma known_of_replay {table : AliasTable TypeExpr} {node : Node} {direction : Direction}
    {type : TypeExpr} {name : String}
    (replayed : (depicter style).replay setting table ((depicter style).walk node direction) =
      .ok type) (mentions : type.Mentions name) : name = "Date" ∨ name ∈ table.names := by
  by_contra unknown
  have outside : name ∉ "Date" :: table.names := fun mem => unknown (List.mem_cons.mp mem)
  obtain ⟨f, inj, kept, moved⟩ := exists_moving outside
  refine moved (mentions.fixed (Depicter.replay_fixed
    (alike_walk inj (kept _ List.mem_cons_self) node direction) ?_ replayed))
  intro name mem
  simp [depicter, TypeExpr.rename, kept _ (List.mem_cons_of_mem _ mem)]

namespace Draft

variable {draft later : Draft} {options : TypeOptions}

/-- How a draft grows: no alias and no declaration is taken back. -/
structure Grows (draft later : Draft) : Prop where
  names : draft.aliases.names ⊆ later.aliases.names
  declarations : draft.declarations ⊆ later.declarations

lemma Grows.knows (grows : draft.Grows later) {name : String} (known : draft.Knows name) :
    later.Knows name := by
  rcases known with date | named | ⟨type, declared⟩
  · exact .inl date
  · exact .inr (.inl (grows.names named))
  · exact .inr (.inr ⟨type, grows.declarations declared⟩)

/-- A depiction changes nothing in the draft but the aliases. -/
lemma depicting_made {α : Type} {view : View α} {result : Except Halt α}
    (h : depicting view draft = (result, later)) :
    ∃ aliases, view draft.aliases = (result, aliases) ∧
      later = { draft with aliases := aliases } := by
  obtain ⟨first, rfl⟩ := Prod.mk.inj h
  exact ⟨_, Prod.ext first rfl, rfl⟩

/-- What assembly keeps: the aliases are steady, and declarations mention nothing unknown. -/
structure Sound (setting : Setting) (style : OptionalStyle) (draft : Draft) : Prop where
  steady : (depicter style).Steady setting (fun _ => True) draft.aliases
  known : ∀ declaration ∈ draft.declarations, ∀ name, declaration.Mentions name →
    draft.Knows name

lemma Sound.empty : Sound setting style {} :=
  ⟨.empty (depicter style) setting _, fun _ mem => absurd mem List.not_mem_nil⟩

lemma Sound.declare (sound : draft.Sound setting style) (declaration : Declaration)
    (known : ∀ name, declaration.Mentions name → draft.Knows name)
    (h : Draft.declare declaration draft = (.ok ⟨⟩, later)) :
    later.Sound setting style ∧ draft.Grows later ∧ declaration ∈ later.declarations := by
  obtain ⟨⟩ := h
  have grows : draft.Grows
      { draft with declarations := draft.declarations ++ [declaration] } :=
    ⟨List.Subset.refl _, List.subset_append_left _ _⟩
  refine ⟨⟨sound.steady, fun other mem name mentions => grows.knows ?_⟩, grows, by simp⟩
  rcases List.mem_append.mp mem with mem | mem
  · exact sound.known other mem name mentions
  · obtain rfl := List.mem_singleton.mp mem
    exact known name mentions

lemma Sound.depicting (sound : draft.Sound setting style) {direction : Direction} {node : Node}
    {type : TypeExpr}
    (h : Draft.depicting (depict setting style direction node) draft = (.ok type, later)) :
    later.Sound setting style ∧ draft.Grows later ∧
      ∀ name, type.Mentions name → later.Knows name := by
  obtain ⟨aliases, made, rfl⟩ := depicting_made h
  obtain ⟨ext, steady, replayed⟩ := sound.steady.depict (uniform style)
    (fun _ _ _ _ => trivial) (fun _ _ => trivial) made
  have grows : draft.Grows { draft with aliases := aliases } :=
    ⟨ext.names_subset sound.steady.numbered, List.Subset.refl _⟩
  refine ⟨⟨steady, fun other mem name mentions =>
    grows.knows (sound.known other mem name mentions)⟩, grows, fun name mentions => ?_⟩
  rcases known_of_replay (replayed _ (.refl _)) mentions with date | named
  · exact .inl date
  · exact .inr (.inl named)

/-- Whether the members of an interface in the making mention nothing unknown. -/
def Listed (members : List (Member TypeExpr)) (draft : Draft) : Prop :=
  ∀ member ∈ members, ∀ name, member.type.Mentions name → draft.Knows name

lemma addEvent_sound {namespaceId : String} {members members' : List (Member TypeExpr)}
    {event : Event} (sound : draft.Sound setting options.optional) (listed : Listed members draft)
    (h : addEvent setting options namespaceId members event draft = (.ok members', later)) :
    later.Sound setting options.optional ∧ Listed members' later := by
  rw [addEvent] at h
  obtain ⟨type, depicted, made, h⟩ := bind_ok h
  obtain ⟨sound, first, known⟩ := sound.depicting made
  obtain ⟨_, declared, added, h⟩ := bind_ok h
  obtain ⟨sound, second, mem⟩ := sound.declare
    (.typeAlias (eventName namespaceId event) type) known added
  obtain ⟨⟩ := h
  refine ⟨sound, ?_⟩
  intro member inside name mentions
  rcases List.mem_append.mp inside with inside | inside
  · exact second.knows (first.knows (listed member inside name mentions))
  · obtain rfl := List.mem_singleton.mp inside
    generalize eventName namespaceId event = declared at mem mentions
    cases mentions with
    | here => exact .inr (.inr ⟨type, mem⟩)
    | part mem _ => cases mem

lemma addDirection_sound {ns : Namespace} {direction : Direction}
    (sound : draft.Sound setting options.optional)
    (h : addDirection setting options ns direction draft = (.ok ⟨⟩, later)) :
    later.Sound setting options.optional := by
  rw [addDirection] at h
  obtain ⟨members, middle, made, h⟩ := bind_ok h
  obtain ⟨sound, listed⟩ := foldlM_ok
    (fun members draft => draft.Sound setting options.optional ∧ Listed members draft)
    (fun _ _ _ _ _ here added => addEvent_sound here.1 here.2 added)
    ⟨sound, fun _ mem => absurd mem List.not_mem_nil⟩ made
  refine (sound.declare (.interface _ members) ?_ h).1
  rintro name ⟨member, mem, mentions⟩
  exact listed member mem name mentions

lemma addNamespace_sound {ns : Namespace} (sound : draft.Sound setting options.optional)
    (h : addNamespace setting options ns draft = (.ok ⟨⟩, later)) :
    later.Sound setting options.optional := by
  rw [addNamespace] at h
  obtain ⟨_, middle, incoming, outgoing⟩ := bind_ok h
  exact addDirection_sound (addDirection_sound sound incoming) outgoing

end Draft

end TypeScript

namespace Document

/-- The component schemas of a document. -/
def componentSchemas (document : Document) : Fields SchemaObject :=
  (document.components.map Components.schemas).getD []

/-- The schemas of a document: those of the messages, and the components. -/
def schemas (document : Document) : List SchemaObject :=
  (document.channels.flatMap fun channel => channel.2.messages.map fun message =>
    message.2.payload) ++ document.componentSchemas.map Prod.snd

end Document

lemma Draft.componentSchemas_finish (draft : Draft) (config : Config) :
    (draft.finish config).componentSchemas = draft.components.definitions := by
  simp only [Document.componentSchemas, finish]
  split
  · rename_i empty
    rw [Bool.and_eq_true, List.isEmpty_iff] at empty
    exact empty.1.symm
  · rfl

namespace Draft

variable {setting : Setting} {draft : Draft}

lemma Sound.finish (sound : draft.Sound setting) (config : Config) :
    ∀ s ∈ (draft.finish config).schemas, ∀ path, s.Carries path →
      ∃ name ∈ Fields.names (draft.finish config).componentSchemas,
        path = SchemaObject.componentPath name := by
  rw [componentSchemas_finish, AliasTable.names_definitions]
  intro s mem
  rcases List.mem_append.mp mem with mem | mem
  · obtain ⟨channel, inside, mem⟩ := List.mem_flatMap.mp mem
    obtain ⟨message, sent, rfl⟩ := List.mem_map.mp mem
    exact sound.messages channel inside message sent
  · rw [componentSchemas_finish] at mem
    obtain ⟨field, inside, rfl⟩ := List.mem_map.mp mem
    obtain ⟨node, direction, replayed⟩ := sound.steady.definition inside
    exact Document.within_of_replay replayed

end Draft

namespace TypeScript.Draft

variable {setting : Setting} {style : OptionalStyle} {draft : Draft}

lemma Sound.finish (sound : draft.Sound setting style) :
    ∀ declaration ∈ draft.finish, ∀ name, declaration.Mentions name →
      name = "Date" ∨ ∃ type, .typeAlias name type ∈ draft.finish := by
  have declared {name : String} (mem : name ∈ draft.aliases.names) :
      ∃ type, .typeAlias name type ∈ draft.finish := by
    rw [← AliasTable.names_definitions] at mem
    obtain ⟨⟨name, type⟩, inside, rfl⟩ := List.mem_map.mp mem
    exact ⟨type, List.mem_append_left _ (List.mem_map.mpr ⟨_, inside, rfl⟩)⟩
  intro declaration mem name mentions
  rcases List.mem_append.mp mem with mem | mem
  · obtain ⟨field, inside, rfl⟩ := List.mem_map.mp mem
    obtain ⟨node, direction, replayed⟩ := sound.steady.definition inside
    exact (known_of_replay replayed mentions).imp_right declared
  · rcases sound.known declaration mem name mentions with date | named | ⟨type, here⟩
    · exact .inl date
    · exact .inr (declared named)
    · exact .inr ⟨type, List.mem_append_right _ here⟩

end TypeScript.Draft

namespace Contract

variable {contract : Contract} {config : Config} {depth : Nat} {patterns : PatternReader}

/-- An assembly ends with a draft when its last step does. -/
lemma assembled_eq_ok {σ : Type} {add : Namespace → ExceptT Halt (StateM σ) Unit}
    {start draft : σ} :
    contract.assembled add start = .ok draft ↔
      contract.namespaces.forM add start = (.ok ⟨⟩, draft) := by
  change (contract.namespaces.forM add start).1.map
    (fun _ => (contract.namespaces.forM add start).2) = .ok draft ↔ _
  rcases contract.namespaces.forM add start with ⟨cause | _, ended⟩
  · exact ⟨nofun, nofun⟩
  · constructor
    · rintro ⟨⟩
      rfl
    · rintro ⟨⟩
      rfl

lemma drafted_sound {draft : Draft} (h : contract.drafted depth patterns = .ok draft) :
    draft.Sound (contract.setting depth patterns) :=
  forM_ok (·.Sound (contract.setting depth patterns))
    (fun _ _ _ sound added => Draft.addNamespace_sound sound added) .empty (assembled_eq_ok.mp h)

lemma typed_sound {draft : TypeScript.Draft}
    (h : contract.typed config depth patterns = .ok draft) :
    draft.Sound (contract.setting depth patterns) config.types.optional :=
  forM_ok (·.Sound (contract.setting depth patterns) config.types.optional)
    (fun _ _ _ sound added =>
      TypeScript.Draft.addNamespace_sound sound added) .empty (assembled_eq_ok.mp h)

lemma generate_ok {artifacts : Artifacts}
    (h : contract.generate config depth patterns = .ok artifacts) :
    ∃ draft typed, contract.drafted depth patterns = .ok draft ∧
      contract.typed config depth patterns = .ok typed ∧
      artifacts = ⟨draft.finish config, typed.finish⟩ := by
  simp only [generate, document, declarations] at h
  cases drafted : contract.drafted depth patterns with
  | error cause =>
    rw [drafted] at h
    cases h
  | ok draft =>
    cases typed : contract.typed config depth patterns with
    | error cause =>
      rw [drafted, typed] at h
      cases h
    | ok types =>
      rw [drafted, typed] at h
      exact ⟨draft, types, rfl, rfl, (Except.ok.inj h).symm⟩

end Contract

/-- Whether published definitions are those of a table in which all aliases have got theirs: each is
the view of what a reference stands for. -/
structure Depicter.Published {U : Type} (depicter : Depicter U) (setting : Setting)
    (table : AliasTable U) (published : Fields U) : Prop where
  complete : table.Complete
  settled : depicter.SettledIn setting (fun _ => True) table table
  definitions : published = table.definitions
  viewed : ∀ field ∈ published, ∃ target direction,
    depicter.replay setting table (depicter.walk (setting.resolve target) direction) = .ok field.2

lemma Depicter.Steady.published {U : Type} {depicter : Depicter U} {setting : Setting}
    {table : AliasTable U} (steady : depicter.Steady setting (fun _ => True) table) :
    depicter.Published setting table table.definitions where
  complete := steady.complete
  settled := steady.settled _ (.refl _)
  definitions := rfl
  viewed _ mem := steady.definition mem

/-- What a generation that succeeds refers to is there: references in the document are to its
components, types mention only `Date` and declared aliases, and no alias is provisional, so that the
components and the declared aliases are views of what references stand for. -/
theorem generated_references_are_declared (contract : Contract) (config : Config) (depth : Nat)
    (patterns : PatternReader) (artifacts : Artifacts)
    (generated : contract.generate config depth patterns = .ok artifacts) :
    (∀ s ∈ artifacts.document.schemas, ∀ path, s.Carries path →
      ∃ name ∈ Fields.names artifacts.document.componentSchemas,
        path = SchemaObject.componentPath name) ∧
    (∀ declaration ∈ artifacts.declarations, ∀ name, declaration.Mentions name →
      name = "Date" ∨ ∃ type, .typeAlias name type ∈ artifacts.declarations) ∧
    ∃ draft typed aliases, contract.drafted depth patterns = .ok draft ∧
      contract.typed config depth patterns = .ok typed ∧
      artifacts = ⟨draft.finish config, typed.finish⟩ ∧
      Document.depicter.Published (contract.setting depth patterns) draft.components
        artifacts.document.componentSchemas ∧
      artifacts.declarations =
        (aliases.map fun (name, type) => .typeAlias name type) ++ typed.declarations ∧
      (TypeScript.depicter config.types.optional).Published (contract.setting depth patterns)
        typed.aliases aliases := by
  obtain ⟨draft, typed, drafted, types, rfl⟩ := Contract.generate_ok generated
  have documented := Contract.drafted_sound drafted
  have declared := Contract.typed_sound types
  refine ⟨documented.finish config, declared.finish, draft, typed, typed.aliases.definitions,
    drafted, types, rfl, ?_, rfl, declared.steady.published⟩
  rw [Draft.componentSchemas_finish]
  exact documented.steady.published

/-- One event, with trees as its arguments. -/
def forestContract : Contract where
  namespaces := [{
    path := "/"
    events := [{
      name := "grow"
      direction := .input
      payload := .of (.tuple [.of (.reference "tree" "Tree")] none) }] }]
  definitions := [("Tree", .of (.array (.of (.reference "tree" "Tree")) none none))]

theorem forest_references_are_declared :
    ∃ (artifacts : Artifacts) (draft : Draft) (typed : TypeScript.Draft),
      forestContract.generate {} = .ok artifacts ∧
      (∀ s ∈ artifacts.document.schemas, ∀ path, s.Carries path →
        ∃ name ∈ Fields.names artifacts.document.componentSchemas,
          path = SchemaObject.componentPath name) ∧
      (∀ declaration ∈ artifacts.declarations, ∀ name, declaration.Mentions name →
        name = "Date" ∨ ∃ type, .typeAlias name type ∈ artifacts.declarations) ∧
      Document.depicter.Published forestContract.setting draft.components
        artifacts.document.componentSchemas ∧
      ∃ aliases, (TypeScript.depicter {}).Published forestContract.setting typed.aliases
        aliases := by
  have succeeds : (forestContract.generate {}).isOk = true := by decide +kernel
  cases generated : forestContract.generate {} with
  | error cause =>
    rw [generated] at succeeds
    cases succeeds
  | ok artifacts =>
    obtain ⟨document, declarations, draft, typed, aliases, -, -, -, components, -, aliased⟩ :=
      generated_references_are_declared _ _ _ _ _ generated
    exact ⟨artifacts, draft, typed, rfl, document, declarations, components, aliases, aliased⟩

end EventContracts
