import EventContracts.Proofs.ReferenceClosure
import EventContracts.Proofs.SpecConversion

/-! A manifest that can be converted is closed: whatever is reached from its events and definitions,
with references followed any number of times, refers to defined names only, and what a name stands
for is the conversion of its spec. Assembly adds no errors of its own, so a generation ends with an
error only where there is no view of a kind. -/

namespace EventContracts

/-- What is reached from the events and the definitions of a contract. -/
inductive Contract.Reaches (contract : Contract) : Node → Prop where
  | payload {ns : Namespace} {event : Event} (inside : ns ∈ contract.namespaces)
      (mem : event ∈ ns.events) : contract.Reaches event.payload
  | ack {ns : Namespace} {event : Event} {ack : Node} (inside : ns ∈ contract.namespaces)
      (mem : event ∈ ns.events) (acked : event.ack = some ack) : contract.Reaches ack
  | definition {field : String × Node} (mem : field ∈ contract.definitions) :
      contract.Reaches field.2
  | child {kind : Kind Node} {notes : Notes} {child : Node}
      (reached : contract.Reaches (.mk kind notes)) (mem : child ∈ kind.children) :
      contract.Reaches child
  | resolved {key target : String} {notes : Notes}
      (reached : contract.Reaches (.mk (.reference key target) notes)) :
      contract.Reaches (contract.definitions.resolve target)

lemma forall₂_of_mapM {ε α β : Type} {f : α → Except ε β} {items : List α} {results : List β}
    (h : items.mapM f = .ok results) : List.Forall₂ (fun a b => f a = .ok b) items results := by
  induction items generalizing results with
  | nil =>
    obtain rfl := Except.ok.inj h
    exact .nil
  | cons a items ih =>
    rw [List.mapM_cons] at h
    obtain ⟨first, made, h⟩ := exists_of_bind h
    obtain ⟨more, rest, h⟩ := exists_of_bind h
    obtain rfl := Except.ok.inj h
    exact .cons made (ih rest)

open Spec

variable {defined : List String} {good : Json → Prop}

namespace EventSpec

/-- Whether all values that a manifest says about an event are good. -/
def Holds (good : Json → Prop) (spec : EventSpec) : Prop :=
  (∀ args, spec.args = some args → good args) ∧ (∀ rest, spec.rest = some rest → good rest) ∧
    ∀ ack, spec.ack = some ack → good ack

variable {spec : EventSpec} {path : String}

/-- A converted tuple can be given a further element. -/
lemma withRest_converted {first rest node : Node} (converted : first.Converted defined good)
    (last : rest.Converted defined good)
    (h : (if first.tupleParts?.isSome then pure (.mk (first.kind.withRest rest) first.notes)
      else invalid path (Text.ticked "rest" ++ " requires a list of arguments")) =
        Except.ok node) : node.Converted defined good := by
  split at h
  · obtain rfl := Except.ok.inj h
    cases converted with
    | @mk kind notes layer examples children =>
      cases kind with
      | tuple items rest =>
        refine .mk trivial examples ?_
        intro child mem
        rcases List.mem_append.mp mem with mem | mem
        · exact children child (List.mem_append_left _ mem)
        · obtain rfl := List.mem_singleton.mp mem
          exact last
      | _ => exact .mk layer examples children
  · cases h

lemma payload_converted (hereditary : Json.Hereditary good) (holds : spec.Holds good) {node : Node}
    (h : spec.payload defined path = .ok node) : node.Converted defined good := by
  obtain ⟨args, rest, ack, examples, description⟩ := spec
  obtain ⟨goodArgs, goodRest, -⟩ := holds
  have empty : (Node.of (.tuple [] none)).Converted defined good :=
    .of trivial (by simp [Kind.children])
  cases args with
  | none =>
    cases rest with
    | none =>
      obtain rfl := Except.ok.inj h
      exact empty
    | some rest =>
      obtain ⟨first, same, h⟩ := exists_of_bind h
      obtain rfl := Except.ok.inj same
      obtain ⟨last, made, h⟩ := exists_of_bind h
      exact withRest_converted empty (toNode_converted hereditary (goodRest rest rfl) made) h
  | some args =>
    obtain ⟨first, given, h⟩ := exists_of_bind h
    have converted := toArguments_converted hereditary (goodArgs args rfl) given
    cases rest with
    | none =>
      obtain rfl := Except.ok.inj h
      exact converted
    | some rest =>
      obtain ⟨last, made, h⟩ := exists_of_bind h
      exact withRest_converted converted (toNode_converted hereditary (goodRest rest rfl) made) h

end EventSpec

namespace Manifest

/-- Whether all values of a manifest that are converted are good. -/
structure Holds (good : Json → Prop) (manifest : Manifest) : Prop where
  definitions : ∀ field ∈ manifest.definitions, good field.2
  actions : ∀ ns ∈ manifest.namespaces, ∀ event ∈ ns.2.actions, event.2.Holds good
  emission : ∀ ns ∈ manifest.namespaces, ∀ event ∈ ns.2.emission, event.2.Holds good

lemma holds_anything (manifest : Manifest) : manifest.Holds fun _ => True where
  definitions _ _ := trivial
  actions _ _ _ _ := ⟨fun _ _ => trivial, fun _ _ => trivial, fun _ _ => trivial⟩
  emission _ _ _ _ := ⟨fun _ _ => trivial, fun _ _ => trivial, fun _ _ => trivial⟩

lemma anything_hereditary : Json.Hereditary fun _ => True :=
  ⟨fun _ _ _ _ => trivial, fun _ _ _ _ => trivial⟩

variable {manifest : Manifest} {definitions : Definitions} {contract : Contract}

/-- Whether schemas are those of specs, converted one by one. -/
def ConvertsDefinitions (defined : List String) : Fields Json → Definitions → Prop :=
  List.Forall₂ fun entry field =>
    field.1 = entry.1 ∧ toNode defined entry.2 (Parts.referenceKey entry.1) = .ok field.2

lemma convertsDefinitions_of_ok (h : manifest.toDefinitions = .ok definitions) :
    ConvertsDefinitions manifest.definitions.names manifest.definitions definitions := by
  refine (forall₂_of_mapM h).imp ?_
  rintro ⟨name, spec⟩ field here
  obtain ⟨node, made, same⟩ := exists_of_bind here
  obtain rfl := Except.ok.inj same
  exact ⟨rfl, made⟩

lemma ConvertsDefinitions.get? {specs : Fields Json}
    (converts : ConvertsDefinitions defined specs definitions)
    {name : String} {spec : Json} (found : Fields.get? name specs = some spec) :
    ∃ node, toNode defined spec (Parts.referenceKey name) = .ok node ∧
      Fields.get? name definitions = some node := by
  induction converts with
  | nil => cases found
  | @cons entry field specs definitions first _ ih =>
    obtain ⟨key, node⟩ := field
    obtain ⟨rfl, made⟩ := first
    simp only [Fields.get?] at found ⊢
    split at found
    · rename_i same
      obtain rfl := Option.some.inj found
      obtain rfl := same
      exact ⟨node, made, if_pos rfl⟩
    · rename_i other
      rw [if_neg other]
      exact ih found

/-- What a defined name stands for is the conversion of its spec. -/
lemma resolve_toDefinitions (h : manifest.toDefinitions = .ok definitions) {name : String}
    {spec : Json} (found : Fields.get? name manifest.definitions = some spec) :
    ∃ node, toNode manifest.definitions.names spec (Parts.referenceKey name) = .ok node ∧
      definitions.resolve name = node := by
  obtain ⟨node, made, found⟩ := (convertsDefinitions_of_ok h).get? found
  exact ⟨node, made, by simp [Definitions.resolve, found]⟩

lemma definition_converted (hereditary : Json.Hereditary good)
    (holds : ∀ field ∈ manifest.definitions, good field.2)
    (h : manifest.toDefinitions = .ok definitions) :
    ∀ field ∈ definitions, field.2.Converted manifest.definitions.names good := by
  intro field mem
  obtain ⟨spec, inside, -, made⟩ := exists_of_forall₂ (convertsDefinitions_of_ok h).flip mem
  exact toNode_converted hereditary (holds spec inside) made

/-- The schema of a defined name comes from conversion. -/
lemma resolve_converted (hereditary : Json.Hereditary good)
    (holds : ∀ field ∈ manifest.definitions, good field.2)
    (h : manifest.toDefinitions = .ok definitions) {name : String}
    (mem : name ∈ manifest.definitions.names) :
    (definitions.resolve name).Converted manifest.definitions.names good := by
  cases found : Fields.get? name manifest.definitions with
  | none => exact absurd mem (Fields.get?_eq_none.mp found)
  | some spec =>
    obtain ⟨node, made, same⟩ := resolve_toDefinitions h found
    rw [same]
    exact toNode_converted hereditary (holds _ (Fields.mem_of_get? found)) made

lemma event_converted (hereditary : Json.Hereditary good) {direction : Direction}
    {name path : String} {spec : EventSpec} {event : Event} (holds : spec.Holds good)
    (h : spec.toEvent defined direction name path = .ok event) :
    event.payload.Converted defined good ∧
      ∀ ack, event.ack = some ack → ack.Converted defined good := by
  obtain ⟨payload, first, h⟩ := exists_of_bind h
  obtain ⟨reply, second, h⟩ := exists_of_bind h
  obtain rfl := Except.ok.inj h
  refine ⟨EventSpec.payload_converted hereditary holds first, ?_⟩
  rintro ack rfl
  obtain ⟨-, -, acked⟩ := holds
  match given : spec.ack with
  | none =>
    rw [given] at second
    cases second
  | some value =>
    rw [given] at second
    obtain ⟨node, made, same⟩ := exists_of_bind second
    obtain rfl := Option.some.inj (Except.ok.inj same)
    exact toArguments_converted hereditary (acked value given) made

/-- Whether events are those of a section of a namespace, converted one by one. -/
def ConvertsEvents (defined : List String) (direction : Direction) :
    Fields EventSpec → List Event → Prop :=
  List.Forall₂ fun entry event => ∃ path, entry.2.toEvent defined direction entry.1 path = .ok event

lemma convertsEvents_of_ok {direction : Direction} {place : String} {specs : Fields EventSpec}
    {events : List Event}
    (h : NamespaceSpec.toEvents defined direction place specs = .ok events) :
    ConvertsEvents defined direction specs events :=
  (forall₂_of_mapM h).imp fun _ _ made => ⟨_, made⟩

/-- Whether a namespace is what a manifest has at a path, with its events converted: those that flow
in, and then those that flow out. -/
structure ConvertsNamespace (defined : List String) (entry : String × NamespaceSpec)
    (ns : Namespace) :
    Prop where
  path : ns.path = entry.1
  security : ns.security = entry.2.security
  events : ∃ incoming outgoing, ns.events = incoming ++ outgoing ∧
    ConvertsEvents defined .input entry.2.actions incoming ∧
    ConvertsEvents defined .output entry.2.emission outgoing

lemma convertsNamespace_of_ok {entry : String × NamespaceSpec} {ns : Namespace}
    (h : entry.2.toNamespace defined entry.1 = .ok ns) : ConvertsNamespace defined entry ns := by
  obtain ⟨incoming, first, h⟩ := exists_of_bind h
  obtain ⟨outgoing, second, h⟩ := exists_of_bind h
  obtain rfl := Except.ok.inj h
  exact ⟨rfl, rfl, incoming, outgoing, rfl, convertsEvents_of_ok first, convertsEvents_of_ok second⟩

/-- Whether a contract has what a manifest has, converted one by one. -/
structure ConvertsTo (manifest : Manifest) (contract : Contract) : Prop where
  definitions :
    ConvertsDefinitions manifest.definitions.names manifest.definitions contract.definitions
  namespaces : List.Forall₂ (ConvertsNamespace manifest.definitions.names) manifest.namespaces
    contract.namespaces

lemma definitions_of_toContract (h : manifest.toContract = .ok contract) :
    manifest.toDefinitions = .ok contract.definitions := by
  obtain ⟨definitions, defined, h⟩ := exists_of_bind h
  obtain ⟨namespaces, -, h⟩ := exists_of_bind h
  obtain rfl := Except.ok.inj h
  exact defined

lemma convertsTo_of_toContract (h : manifest.toContract = .ok contract) :
    manifest.ConvertsTo contract where
  definitions := convertsDefinitions_of_ok (definitions_of_toContract h)
  namespaces := by
    obtain ⟨definitions, -, h⟩ := exists_of_bind h
    obtain ⟨namespaces, made, h⟩ := exists_of_bind h
    obtain rfl := Except.ok.inj h
    exact (forall₂_of_mapM made).imp fun _ _ here => convertsNamespace_of_ok here

lemma namespace_converted (hereditary : Json.Hereditary good) (holds : manifest.Holds good)
    (h : manifest.toContract = .ok contract) {ns : Namespace} (inside : ns ∈ contract.namespaces)
    {event : Event} (mem : event ∈ ns.events) :
    event.payload.Converted manifest.definitions.names good ∧
      ∀ ack, event.ack = some ack → ack.Converted manifest.definitions.names good := by
  obtain ⟨entry, listed, -, -, incoming, outgoing, same, first, second⟩ :=
    exists_of_forall₂ (convertsTo_of_toContract h).namespaces.flip inside
  rw [same] at mem
  rcases List.mem_append.mp mem with mem | mem
  · obtain ⟨spec, given, path, made⟩ := exists_of_forall₂ first.flip mem
    exact event_converted hereditary (holds.actions entry listed spec given) made
  · obtain ⟨spec, given, path, made⟩ := exists_of_forall₂ second.flip mem
    exact event_converted hereditary (holds.emission entry listed spec given) made

/-- Everything that is reached comes from conversion. The step that follows a reference stays
within the definitions, because the name of a converted reference is defined. -/
lemma reaches_converted (hereditary : Json.Hereditary good) (holds : manifest.Holds good)
    (h : manifest.toContract = .ok contract) {node : Node} (reached : contract.Reaches node) :
    node.Converted manifest.definitions.names good := by
  induction reached with
  | payload inside mem => exact (namespace_converted hereditary holds h inside mem).1
  | ack inside mem acked => exact (namespace_converted hereditary holds h inside mem).2 _ acked
  | definition mem =>
    exact definition_converted hereditary holds.definitions (definitions_of_toContract h) _ mem
  | child _ mem ih =>
    obtain ⟨-, -, children⟩ := ih
    exact children _ mem
  | @resolved key target notes _ ih =>
    obtain ⟨⟨-, defined⟩, -, -⟩ := ih
    exact resolve_converted hereditary holds.definitions (definitions_of_toContract h) defined

end Manifest

/-- Whether a halt is an error about a kind without a view, if it is an error at all. -/
def Halt.Plain (cause : Halt) : Prop :=
  ∀ e, cause = .error e → ∃ kind direction, e = .unsupportedKind kind direction

lemma Halt.Genuine.plain {cause : Halt} (genuine : cause.Genuine) : cause.Plain := by
  rintro e rfl
  exact genuine

namespace Depicter

variable {U : Type} {depicter : Depicter U} {setting : Setting}
  {rename : (String → String) → U → U}

/-- A run halts where a walk does: in the one it is of, or in that over the body of a reference. -/
lemma Runs.plain (uniform : depicter.Uniform rename) {table later : AliasTable U} {w : Walk U U}
    {visits : List Visit} {result : Except Halt U}
    (h : depicter.Runs setting table w visits result later) {asked : String → Prop}
    (alike : ∃ w', Walk.Alike asked (rename id) (rename id) w w') {cause : Halt}
    (failed : result = .error cause) : cause.Plain := by
  induction h generalizing asked with
  | done => cases failed
  | halt =>
    obtain ⟨_, alike⟩ := alike
    obtain rfl := Except.error.inj failed
    cases alike with
    | halt genuine => exact genuine.plain
  | @ask _ node input next _ _ _ rest ih =>
    obtain ⟨_, alike⟩ := alike
    cases alike with
    | ask stops _ next =>
      by_cases unfinished : setting.library.validate node input = .unfinished
      · rw [unfinished, stops] at rest
        cases rest
        obtain rfl := Except.error.inj failed
        exact nofun
      · exact ih ⟨_, next _ unfinished⟩ failed
  | known _ _ ih =>
    obtain ⟨_, alike⟩ := alike
    cases alike with
    | refer _ rest => exact ih ⟨_, rest _⟩ failed
  | produced _ _ _ _ restIH =>
    obtain ⟨_, alike⟩ := alike
    cases alike with
    | refer _ rest => exact restIH ⟨_, rest _⟩ failed
  | failed _ _ bodyIH => exact bodyIH ⟨_, uniform.self _ _⟩ failed

lemma depict_plain (uniform : depicter.Uniform rename) {table later : AliasTable U} {node : Node}
    {direction : Direction} {cause : Halt}
    (h : depicter.depict setting node direction table = (.error cause, later)) : cause.Plain := by
  obtain ⟨visits, run⟩ := runs_depict setting uniform.unknown table node direction
  rw [h] at run
  exact run.plain uniform ⟨_, uniform.self node direction⟩ rfl

end Depicter

namespace Draft

variable {setting : Setting}

lemma depicting_plain (direction : Direction) (node : Node) :
    FailsBy Halt.Plain (depicting (Document.depict setting direction node)) := by
  intro draft cause later h
  obtain ⟨components, made, -⟩ := depicting_made h
  exact Depicter.depict_plain Document.uniform made

lemma addEvent_plain (ns : Namespace) (channelId : String) (messages : Fields Message)
    (event : Event) : FailsBy Halt.Plain (addEvent setting ns channelId messages event) := by
  refine .bind (depicting_plain _ _) ?_
  intro payload
  cases event.ack with
  | none => exact .bind (.pure _) fun (_, _) => .bind (.modify _) fun _ => .pure _
  | some ack =>
    refine .bind (depicting_plain _ _) ?_
    intro reply
    exact .bind (.pure _) fun (_, _) => .bind (.modify _) fun _ => .pure _

lemma addNamespace_plain (ns : Namespace) : FailsBy Halt.Plain (addNamespace setting ns) :=
  .bind (.foldlM (fun messages event => addEvent_plain ns _ messages event) _ _) fun _ => .modify _

end Draft

namespace TypeScript.Draft

variable {setting : Setting} {options : TypeOptions}

lemma depicting_plain (direction : Direction) (node : Node) :
    FailsBy Halt.Plain (depicting (depict setting options.optional direction node)) := by
  intro draft cause later h
  obtain ⟨aliases, made, -⟩ := depicting_made h
  exact Depicter.depict_plain (uniform options.optional) made

lemma addEvent_plain (namespaceId : String) (members : List (Member TypeExpr)) (event : Event) :
    FailsBy Halt.Plain (addEvent setting options namespaceId members event) := by
  refine .bind (depicting_plain _ _) ?_
  intro type
  exact .bind (.modify _) fun _ => .pure _

lemma addDirection_plain (ns : Namespace) (direction : Direction) :
    FailsBy Halt.Plain (addDirection setting options ns direction) :=
  .bind (.foldlM (fun members event => addEvent_plain _ members event) _ _) fun _ => .modify _

lemma addNamespace_plain (ns : Namespace) : FailsBy Halt.Plain (addNamespace setting options ns) :=
  .bind (addDirection_plain ns .input) fun _ => addDirection_plain ns .output

end TypeScript.Draft

namespace Contract

variable {contract : Contract} {config : Config} {depth : Nat} {patterns : PatternReader}
  {cause : Halt}

/-- An assembly fails as the namespaces do. -/
lemma assembled_fails {σ : Type} {add : Namespace → ExceptT Halt (StateM σ) Unit} {start : σ}
    {P : Halt → Prop} (each : ∀ ns, FailsBy P (add ns))
    (h : contract.assembled add start = .error cause) : P cause := by
  change (contract.namespaces.forM add start).1.map
    (fun _ => (contract.namespaces.forM add start).2) = .error cause at h
  rcases ran : contract.namespaces.forM add start with ⟨other | _, ended⟩
  · rw [ran] at h
    obtain rfl := Except.error.inj h
    exact FailsBy.forM each _ _ _ _ ran
  · rw [ran] at h
    cases h

lemma generate_plain (h : contract.generate config depth patterns = .error cause) :
    cause.Plain := by
  simp only [generate, document, declarations] at h
  cases drafted : contract.drafted depth patterns with
  | error other =>
    rw [drafted] at h
    obtain rfl := Except.error.inj h
    exact assembled_fails Draft.addNamespace_plain drafted
  | ok draft =>
    cases typed : contract.typed config depth patterns with
    | error other =>
      rw [drafted, typed] at h
      obtain rfl := Except.error.inj h
      exact assembled_fails TypeScript.Draft.addNamespace_plain typed
    | ok types =>
      rw [drafted, typed] at h
      cases h

end Contract

/-- A manifest that can be converted leaves nothing to be found out later. The contract has what the
manifest has; every reference that is reached in it, with references followed any number of times,
has the key of a defined name and stands for the conversion of its spec; and a generation has no
errors but those about kinds without a view. -/
theorem converted_manifests_are_closed (manifest : Manifest) (contract : Contract)
    (converted : manifest.toContract = .ok contract) :
    manifest.ConvertsTo contract ∧
    (∀ key target notes, contract.Reaches (.mk (.reference key target) notes) →
      key = Spec.Parts.referenceKey target ∧ ∃ spec node,
        Fields.get? target manifest.definitions = some spec ∧
        Spec.toNode manifest.definitions.names spec key = .ok node ∧
        contract.definitions.resolve target = node) ∧
    ∀ config depth patterns e, contract.generate config depth patterns = .error (.error e) →
      ∃ kind direction, e = .unsupportedKind kind direction := by
  refine ⟨Manifest.convertsTo_of_toContract converted, ?_, ?_⟩
  · intro key target notes reached
    obtain ⟨⟨rfl, defined⟩, -, -⟩ := Manifest.reaches_converted Manifest.anything_hereditary
      manifest.holds_anything converted reached
    refine ⟨rfl, ?_⟩
    cases found : Fields.get? target manifest.definitions with
    | none => exact absurd defined (Fields.get?_eq_none.mp found)
    | some spec =>
      obtain ⟨node, made, same⟩ := Manifest.resolve_toDefinitions
        (Manifest.definitions_of_toContract converted) found
      exact ⟨spec, node, rfl, made, same⟩
  · intro config depth patterns e failed
    exact Contract.generate_plain failed e rfl

/-- Trees with branches and the birds that sit on them, birds with the tree where they live, and an
event that is answered with a bird. -/
def gardenManifest : Manifest where
  definitions := [
    ("Tree", .object [("type", .string "object"), ("properties", .object [
      ("branches", .object [("type", .string "array"), ("optional", .bool true),
        ("items", .object [("type", .string "ref"), ("name", .string "Tree")])]),
      ("bird", .object [("type", .string "ref"), ("name", .string "Bird")])])]),
    ("Bird", .object [("type", .string "nullable"),
      ("of", .object [("type", .string "ref"), ("name", .string "Tree")])])]
  namespaces := [("/", { actions := [("grow", {
    args := some (.array [.object [("type", .string "ref"), ("name", .string "Tree")]])
    ack := some (.object [("type", .string "ref"), ("name", .string "Bird")]) })] })]

theorem garden_manifest_is_closed :
    ∃ contract, gardenManifest.toContract = .ok contract ∧ gardenManifest.ConvertsTo contract ∧
      (∀ key target notes, contract.Reaches (.mk (.reference key target) notes) →
        key = Spec.Parts.referenceKey target ∧ ∃ spec node,
          Fields.get? target gardenManifest.definitions = some spec ∧
          Spec.toNode ["Tree", "Bird"] spec key = .ok node ∧
          contract.definitions.resolve target = node) ∧
      ∀ config depth patterns e, contract.generate config depth patterns = .error (.error e) →
        ∃ kind direction, e = .unsupportedKind kind direction := by
  have succeeds : gardenManifest.toContract.isOk = true := by decide +kernel
  cases converted : gardenManifest.toContract with
  | error cause =>
    rw [converted] at succeeds
    cases succeeds
  | ok contract =>
    exact ⟨contract, rfl, converted_manifests_are_closed gardenManifest contract converted⟩

end EventContracts
