import EventContracts.Proofs.ComposedWalks
import EventContracts.Proofs.ReferenceClosure

/-! Assembly is made of depictions. The document of a contract comes from the depictions of the
payloads and acknowledgements of its events, one after the other with one table, and the type
declarations from those of their handlers. Assembly succeeds if and only if all of them do. -/

namespace EventContracts

/-- What is documented of an event: its payload, and the acknowledgement, which flows back. -/
def Event.documentedCalls (event : Event) : List (Node × Direction) :=
  (event.payload, event.direction) :: (event.ack.map (·, event.direction.flip)).toList

/-- What is typed of an event: the function that handles it. -/
def Event.typedCall (options : TypeOptions) (event : Event) : Node × Direction :=
  (event.handlerOf options.maxOverloads, event.direction)

/-- What is documented of a namespace, in order. -/
def Namespace.documentedCalls (ns : Namespace) : List (Node × Direction) :=
  ns.events.flatMap Event.documentedCalls

/-- What is typed of the events of a namespace that flow in a direction. -/
def Namespace.typedCallsIn (options : TypeOptions) (direction : Direction) (ns : Namespace) :
    List (Node × Direction) :=
  (ns.eventsIn direction).map (Event.typedCall options)

/-- What is typed of a namespace, in order. -/
def Namespace.typedCalls (options : TypeOptions) (ns : Namespace) : List (Node × Direction) :=
  ns.typedCallsIn options .input ++ ns.typedCallsIn options .output

/-- What is documented of a contract, in order. -/
def Contract.documentedCalls (contract : Contract) : List (Node × Direction) :=
  contract.namespaces.flatMap Namespace.documentedCalls

/-- What is typed of a contract, in order. -/
def Contract.typedCalls (contract : Contract) (options : TypeOptions) : List (Node × Direction) :=
  contract.namespaces.flatMap (Namespace.typedCalls options)

namespace Depicter

variable {U : Type} {depicter : Depicter U} {setting : Setting}
  {table middle later : AliasTable U} {calls more : List (Node × Direction)}

/-- Depictions that all succeed, one after the other with one table. -/
inductive Succeeds (depicter : Depicter U) (setting : Setting) :
    AliasTable U → List (Node × Direction) → AliasTable U → Prop where
  | nil {table : AliasTable U} : Succeeds depicter setting table [] table
  | cons {table middle later : AliasTable U} {call : Node × Direction}
      {calls : List (Node × Direction)} {view : U}
      (first : depicter.depict setting call.1 call.2 table = (.ok view, middle))
      (rest : Succeeds depicter setting middle calls later) :
      Succeeds depicter setting table (call :: calls) later

lemma Succeeds.append (first : depicter.Succeeds setting table calls middle)
    (rest : depicter.Succeeds setting middle more later) :
    depicter.Succeeds setting table (calls ++ more) later := by
  induction first with
  | nil => exact rest
  | cons made _ ih => exact .cons made (ih rest)

lemma Succeeds.split (h : depicter.Succeeds setting table (calls ++ more) later) :
    ∃ middle, depicter.Succeeds setting table calls middle ∧
      depicter.Succeeds setting middle more later := by
  induction calls generalizing table with
  | nil => exact ⟨table, .nil, h⟩
  | cons call calls ih =>
    cases h with
    | cons made rest =>
      obtain ⟨middle, first, second⟩ := ih rest
      exact ⟨middle, .cons made first, second⟩

/-- After depictions that succeed, the table is steady and replays all of them. -/
lemma Succeeds.steady {rename : (String → String) → U → U} {asked : String → Prop}
    (h : depicter.Succeeds setting table calls later) (uniform : depicter.Uniform rename)
    (closed : setting.Closed asked)
    (inScope : ∀ call ∈ calls, ∀ target, call.1.Refers target → asked target)
    (steady : depicter.Steady setting asked table) :
    table.Extends later ∧ depicter.Steady setting asked later ∧ ∀ call ∈ calls, ∃ view,
      depicter.replay setting later (depicter.walk call.1 call.2) = .ok view := by
  induction h with
  | nil => exact ⟨.refl _, steady, fun call mem => absurd mem List.not_mem_nil⟩
  | @cons table middle later call calls view made _ ih =>
    obtain ⟨ext, steady, replayed⟩ :=
      steady.depict uniform closed (inScope call List.mem_cons_self) made
    obtain ⟨further, steady, all⟩ :=
      ih (fun call mem => inScope call (List.mem_cons_of_mem _ mem)) steady
    refine ⟨ext.trans further, steady, ?_⟩
    intro other mem
    rcases List.mem_cons.mp mem with rfl | mem
    · exact ⟨view, replayed _ further⟩
    · exact all other mem

/-- A session in which every depiction has a result is one that succeeds. -/
lemma RunsAll.succeeds
    (unknown : ∀ name direction, ∃ cause,
      depicter.walk (.of (.custom name)) direction = .halt cause)
    {visits : List (List Visit)} {results : List (Except Halt U)}
    (h : depicter.RunsAll setting table calls visits results later)
    (ok : ∀ result ∈ results, ∃ view, result = .ok view) :
    depicter.Succeeds setting table calls later := by
  induction h with
  | nil => exact .nil
  | @cons table middle later call calls visits more result results first rest ih =>
    obtain ⟨view, rfl⟩ := ok _ List.mem_cons_self
    obtain ⟨visits', run⟩ := runs_depict setting unknown table call.1 call.2
    obtain ⟨-, result, same⟩ := run.unique first
    exact .cons (Prod.ext result same) (ih fun result mem => ok result (List.mem_cons_of_mem _ mem))

end Depicter

namespace Draft

variable {setting : Setting} {draft later : Draft} {table components : AliasTable SchemaObject}
  {ns : Namespace} {channelId : String} {messages messages' : Fields Message} {event : Event}

lemma depicting_ok {α : Type} (draft : Draft) (view : Document.View α) {a : α}
    (made : view draft.components = (.ok a, components)) :
    depicting view draft = (.ok a, { draft with components := components }) := by
  simp only [depicting, made]

lemma addEvent_succeeds
    (h : Document.depicter.Succeeds setting draft.components event.documentedCalls components) :
    ∃ messages' later, addEvent setting ns channelId messages event draft = (.ok messages', later) ∧
      later.components = components := by
  cases h with
  | cons made rest =>
    have first := depicting_ok draft (Document.depict setting event.direction event.payload) made
    rw [addEvent, bind_of_ok first]
    cases acked : event.ack with
    | none =>
      rw [acked] at rest
      cases rest
      exact ⟨_, _, rfl, rfl⟩
    | some ack =>
      rw [acked] at rest
      cases rest with
      | @cons _ later _ _ _ view replied rest =>
        cases rest
        have second := depicting_ok { draft with components := _ }
          (Document.depict setting event.direction.flip ack) replied
        dsimp only
        refine ⟨_, _, (bind_of_ok second _).trans rfl, rfl⟩

lemma addEvent_calls
    (h : addEvent setting ns channelId messages event draft = (.ok messages', later)) :
    Document.depicter.Succeeds setting draft.components event.documentedCalls
      later.components := by
  rw [addEvent] at h
  obtain ⟨payload, middle, made, h⟩ := bind_ok h
  obtain ⟨components, first, rfl⟩ := depicting_made made
  cases acked : event.ack with
  | none =>
    rw [acked] at h
    obtain ⟨⟩ := h
    simp only [Event.documentedCalls, acked]
    exact .cons first .nil
  | some ack =>
    rw [acked] at h
    obtain ⟨reply, last, replied, h⟩ := bind_ok h
    obtain ⟨components', second, rfl⟩ := depicting_made replied
    obtain ⟨⟩ := h
    simp only [Event.documentedCalls, acked]
    exact .cons first (.cons second .nil)

lemma addNamespace_succeeds (h : Document.depicter.Succeeds setting draft.components
      ns.documentedCalls components) :
    ∃ later, addNamespace setting ns draft = (.ok ⟨⟩, later) ∧ later.components = components := by
  obtain ⟨messages, middle, made, rest⟩ := foldlM_succeeds
    (addEvent setting ns (Identifier.ofNamespace ns.path)) [] draft
    (fun events current => Document.depicter.Succeeds setting current.components
      (events.flatMap Event.documentedCalls) components)
    (fun event events messages current ready => by
      obtain ⟨between, first, rest⟩ := Depicter.Succeeds.split ready
      obtain ⟨messages', next, added, same⟩ := addEvent_succeeds first
      exact ⟨messages', next, added, same ▸ rest⟩) h
  have done : middle.components = components := by
    cases rest
    rfl
  rw [addNamespace, bind_of_ok made]
  exact ⟨_, rfl, done⟩

lemma addNamespace_calls (h : addNamespace setting ns draft = (.ok ⟨⟩, later)) :
    Document.depicter.Succeeds setting draft.components ns.documentedCalls
      later.components := by
  rw [addNamespace] at h
  obtain ⟨messages, middle, made, h⟩ := bind_ok h
  have all := foldlM_prefix
    (fun done _ current => Document.depicter.Succeeds setting draft.components
      (done.flatMap Event.documentedCalls) current.components)
    (fun done event _ _ _ _ before added => by
      rw [List.flatMap_append, List.flatMap_singleton]
      exact before.append (addEvent_calls added))
    .nil made
  obtain ⟨⟩ := h
  exact all

end Draft

namespace TypeScript.Draft

variable {setting : Setting} {options : TypeOptions} {draft later : Draft}
  {aliases : AliasTable TypeExpr} {ns : Namespace} {direction : Direction}

lemma depicting_ok {α : Type} (draft : Draft) (view : View α) {a : α}
    (made : view draft.aliases = (.ok a, aliases)) :
    depicting view draft = (.ok a, { draft with aliases := aliases }) := by
  simp only [depicting, made]

lemma addEvent_succeeds {namespaceId : String} {members : List (Member TypeExpr)} {event : Event}
    (h : (depicter options.optional).Succeeds setting draft.aliases [event.typedCall options]
      aliases) :
    ∃ members' later, addEvent setting options namespaceId members event draft =
      (.ok members', later) ∧ later.aliases = aliases := by
  cases h with
  | cons made rest =>
    cases rest
    have first := depicting_ok draft (depict setting options.optional event.direction
      (event.handlerOf options.maxOverloads)) made
    rw [addEvent, bind_of_ok first]
    exact ⟨_, _, rfl, rfl⟩

lemma addEvent_calls {namespaceId : String} {members members' : List (Member TypeExpr)}
    {event : Event}
    (h : addEvent setting options namespaceId members event draft = (.ok members', later)) :
    (depicter options.optional).Succeeds setting draft.aliases [event.typedCall options]
      later.aliases := by
  rw [addEvent] at h
  obtain ⟨type, middle, made, h⟩ := bind_ok h
  obtain ⟨aliases, first, rfl⟩ := depicting_made made
  obtain ⟨⟩ := h
  exact .cons first .nil

lemma addDirection_succeeds (h : (depicter options.optional).Succeeds setting draft.aliases
      (ns.typedCallsIn options direction) aliases) :
    ∃ later, addDirection setting options ns direction draft = (.ok ⟨⟩, later) ∧
      later.aliases = aliases := by
  obtain ⟨members, middle, made, rest⟩ := foldlM_succeeds
    (addEvent setting options (Identifier.ofNamespace ns.path)) [] draft
    (fun events current => (depicter options.optional).Succeeds setting current.aliases
      (events.map (Event.typedCall options)) aliases)
    (fun event events members current ready => by
      rw [List.map_cons, ← List.singleton_append] at ready
      obtain ⟨between, first, rest⟩ := ready.split
      obtain ⟨members', next, added, same⟩ := addEvent_succeeds first
      exact ⟨members', next, added, same ▸ rest⟩) h
  have done : middle.aliases = aliases := by
    cases rest
    rfl
  rw [addDirection, bind_of_ok made]
  exact ⟨_, rfl, done⟩

lemma addDirection_calls (h : addDirection setting options ns direction draft = (.ok ⟨⟩, later)) :
    (depicter options.optional).Succeeds setting draft.aliases (ns.typedCallsIn options direction)
      later.aliases := by
  rw [addDirection] at h
  obtain ⟨members, middle, made, h⟩ := bind_ok h
  have all := foldlM_prefix
    (fun done _ current => (depicter options.optional).Succeeds setting draft.aliases
      (done.map (Event.typedCall options)) current.aliases)
    (fun done event _ _ _ _ before added => by
      rw [List.map_append]
      exact before.append (addEvent_calls added))
    .nil made
  obtain ⟨⟩ := h
  exact all

lemma addNamespace_succeeds (h : (depicter options.optional).Succeeds setting draft.aliases
      (ns.typedCalls options) aliases) :
    ∃ later, addNamespace setting options ns draft = (.ok ⟨⟩, later) ∧
      later.aliases = aliases := by
  obtain ⟨between, incoming, outgoing⟩ := Depicter.Succeeds.split h
  obtain ⟨middle, first, rfl⟩ := addDirection_succeeds incoming
  rw [addNamespace, bind_of_ok first]
  exact addDirection_succeeds outgoing

lemma addNamespace_calls (h : addNamespace setting options ns draft = (.ok ⟨⟩, later)) :
    (depicter options.optional).Succeeds setting draft.aliases
      (ns.typedCalls options) later.aliases := by
  rw [addNamespace] at h
  obtain ⟨_, middle, incoming, outgoing⟩ := bind_ok h
  exact (addDirection_calls incoming).append (addDirection_calls outgoing)

end TypeScript.Draft

namespace Contract

variable {contract : Contract} {config : Config} {depth : Nat} {patterns : PatternReader}

section Assembly

variable {σ U : Type} {add : Namespace → ExceptT Halt (StateM σ) Unit} {start : σ}
  {depicter : Depicter U} {setting : Setting} {calls : Namespace → List (Node × Direction)}
  (table : σ → AliasTable U)

/-- The calls of an assembly are those of its namespaces, if each of these makes its calls. -/
lemma assembled_calls
    (each : ∀ ns draft later, add ns draft = (.ok ⟨⟩, later) →
      depicter.Succeeds setting (table draft) (calls ns) (table later))
    {draft : σ} (h : contract.assembled add start = .ok draft) :
    depicter.Succeeds setting (table start) (contract.namespaces.flatMap calls) (table draft) :=
  forM_prefix
    (fun done current => depicter.Succeeds setting (table start) (done.flatMap calls)
      (table current))
    (fun done ns _ _ before added => by
      rw [List.flatMap_append, List.flatMap_singleton]
      exact before.append (each ns _ _ added))
    .nil (assembled_eq_ok.mp h)

lemma assembled_succeeds
    (each : ∀ ns draft ended, depicter.Succeeds setting (table draft) (calls ns) ended →
      ∃ later, add ns draft = (.ok ⟨⟩, later) ∧ table later = ended)
    {ended : AliasTable U}
    (h : depicter.Succeeds setting (table start) (contract.namespaces.flatMap calls) ended) :
    ∃ draft, contract.assembled add start = .ok draft := by
  obtain ⟨draft, ran, -⟩ := forM_succeeds add start
    (fun namespaces current =>
      depicter.Succeeds setting (table current) (namespaces.flatMap calls) ended)
    (fun ns namespaces current ready => by
      obtain ⟨between, first, rest⟩ := Depicter.Succeeds.split ready
      obtain ⟨next, added, same⟩ := each ns current between first
      exact ⟨next, added, same ▸ rest⟩) h
  exact ⟨draft, assembled_eq_ok.mpr ran⟩

end Assembly

lemma drafted_calls {draft : Draft} (h : contract.drafted depth patterns = .ok draft) :
    Document.depicter.Succeeds (contract.setting depth patterns) Document.noComponents
      contract.documentedCalls draft.components :=
  assembled_calls Draft.components (fun _ _ _ added => Draft.addNamespace_calls added) h

lemma typed_calls {draft : TypeScript.Draft}
    (h : contract.typed config depth patterns = .ok draft) :
    (TypeScript.depicter config.types.optional).Succeeds (contract.setting depth patterns)
      TypeScript.noAliases (contract.typedCalls config.types) draft.aliases :=
  assembled_calls TypeScript.Draft.aliases
    (fun _ _ _ added => TypeScript.Draft.addNamespace_calls added) h

/-- Generation succeeds if and only if all depictions do, those of the document and those of the
type declarations. -/
theorem generates_iff (contract : Contract) (config : Config) (depth : Nat)
    (patterns : PatternReader) :
    (∃ artifacts, contract.generate config depth patterns = .ok artifacts) ↔
      (∃ components, Document.depicter.Succeeds (contract.setting depth patterns)
        Document.noComponents
        contract.documentedCalls components) ∧
      ∃ aliases, (TypeScript.depicter config.types.optional).Succeeds
        (contract.setting depth patterns)
        TypeScript.noAliases (contract.typedCalls config.types) aliases := by
  constructor
  · rintro ⟨artifacts, generated⟩
    obtain ⟨draft, typed, drafted, types, -⟩ := generate_ok generated
    exact ⟨⟨_, drafted_calls drafted⟩, _, typed_calls types⟩
  · rintro ⟨⟨components, documented⟩, aliases, declared⟩
    obtain ⟨draft, drafted⟩ : ∃ draft, contract.drafted depth patterns = .ok draft :=
      assembled_succeeds Draft.components (fun _ _ _ h => Draft.addNamespace_succeeds h) documented
    obtain ⟨typed, types⟩ : ∃ draft, contract.typed config depth patterns = .ok draft :=
      assembled_succeeds TypeScript.Draft.aliases
        (fun _ _ _ h => TypeScript.Draft.addNamespace_succeeds h) declared
    refine ⟨⟨draft.finish config, typed.finish⟩, ?_⟩
    simp only [generate, document, declarations, drafted, types]
    rfl

end Contract

end EventContracts
