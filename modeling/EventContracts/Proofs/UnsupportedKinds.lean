import EventContracts.Proofs.AssemblyCalls
import EventContracts.Proofs.FaithfulAliases
import EventContracts.Proofs.ShownArguments
import EventContracts.Proofs.UnbrokenValidations

/-! Kinds without a view stop a generation. The document stops at what nothing is known about, at
nothing and at functions; the type declarations only at the first of these, but they go into the
keys of records, where the document does not. A generation succeeds when neither view meets a kind
at which it stops, and when it succeeds, neither has. Both views miss a kind in one place only,
where nothing is documented: among further arguments that a handler with a callback does not
show. -/

namespace EventContracts

namespace Depicter

variable {U : Type} {depicter : Depicter U} {setting : Setting}
  {parts : Direction → Kind Node → List (Node × Direction)} {bad : Kind Node → Bool}
  {seen : Node → Prop} {table later : AliasTable U} {calls : List (Node × Direction)}
  {rename : (String → String) → U → U}

/-- Whether all validations end that are asked for by a sequence of calls on a fresh table. -/
def Finishes (depicter : Depicter U) (setting : Setting) (calls : List (Node × Direction)) : Prop :=
  ∀ visits results later,
    depicter.RunsAll setting depicter.noAliases calls visits results later →
    ∀ node input, .validation node input ∈ visits.flatten →
      setting.library.validate node input ≠ .unfinished

/-- The body of a reference that is kept, and that meets nothing bad, is calm. -/
lemma calm_bodies (composes : depicter.Composes parts bad) (keeps : setting.Keeps seen)
    (target : String) (direction : Direction) (asked : seen (setting.resolve target) ∧
      ¬ Meets setting.library.definitions parts bad (setting.resolve target) direction) :
    (depicter.walk (setting.resolve target) direction).Calm seen fun target flow =>
      seen (setting.resolve target) ∧
        ¬ Meets setting.library.definitions parts bad (setting.resolve target) flow :=
  calm_walk composes keeps _ _ asked.1 asked.2

/-- Calls on kept nodes that meet nothing bad validate kept nodes only, and they succeed unless a
validation is interrupted. -/
lemma RunsAll.fine (composes : depicter.Composes parts bad) (keeps : setting.Keeps seen)
    {visits : List (List Visit)} {results : List (Except Halt U)}
    (h : depicter.RunsAll setting table calls visits results later)
    (fine : ∀ call ∈ calls,
      seen call.1 ∧ ¬ Meets setting.library.definitions parts bad call.1 call.2) :
    (∀ node input, .validation node input ∈ visits.flatten → seen node) ∧
      ((∀ node input, .validation node input ∈ visits.flatten →
        ∀ cause, setting.library.validate node input ≠ .error (.interrupted cause)) →
        ∀ result ∈ results, ∃ view, result = .ok view) := by
  induction h with
  | nil => exact ⟨nofun, fun _ => nofun⟩
  | cons first _ ih =>
    obtain ⟨validated, succeed⟩ := ih fun call mem => fine call (List.mem_cons_of_mem _ mem)
    obtain ⟨here, meets⟩ := fine _ List.mem_cons_self
    have calm := calm_walk composes keeps _ _ here meets
    have bodies := calm_bodies composes keeps
    constructor
    · intro node input mem
      rcases List.mem_append.mp mem with mem | mem
      · exact first.validated calm bodies node input mem
      · exact validated node input mem
    · intro answered result mem
      rcases List.mem_cons.mp mem with rfl | mem
      · exact first.succeeds calm bodies fun node input mem =>
          answered node input (List.mem_append_left _ mem)
      · exact succeed (fun node input mem => answered node input (List.mem_append_right _ mem))
          result mem

/-- Calls that all succeed meet nothing bad. -/
lemma Succeeds.not_meets {asked : String → Prop}
    (h : depicter.Succeeds setting depicter.noAliases calls later)
    (uniform : depicter.Uniform rename) (composes : depicter.Composes parts bad)
    (closed : setting.Closed asked) (distinguishes : setting.Distinguishes asked)
    (inScope : ∀ call ∈ calls, ∀ target, call.1.Refers target → asked target) :
    ∀ call ∈ calls, ¬ Meets setting.library.definitions parts bad call.1 call.2 := by
  obtain ⟨-, steady, replayed⟩ := h.steady uniform closed inScope (.empty _ _ _)
  intro call mem
  obtain ⟨view, replayed⟩ := replayed call mem
  exact steady.not_meets distinguishes closed composes (inScope call mem) replayed

/-- Calls that meet nothing bad succeed, when no validation crashes and all of them end. -/
lemma Finishes.succeeds (finishes : depicter.Finishes setting calls)
    (uniform : depicter.Uniform rename) (composes : depicter.Composes parts bad)
    (keeps : setting.Keeps seen)
    (unbroken : ∀ node input, seen node → Unbroken .crash (setting.library.validate node input))
    (fine : ∀ call ∈ calls,
      seen call.1 ∧ ¬ Meets setting.library.definitions parts bad call.1 call.2) :
    ∃ later, depicter.Succeeds setting depicter.noAliases calls later := by
  obtain ⟨visits, runs⟩ := runsAll_session setting uniform.unknown calls depicter.noAliases
  obtain ⟨validated, succeed⟩ := runs.fine composes keeps fine
  refine ⟨_, runs.succeeds uniform.unknown (succeed ?_)⟩
  intro node input mem cause
  cases cause with
  | crash => exact unbroken node input (validated node input mem)
  | unfinished => exact finishes _ _ _ runs node input mem

end Depicter

lemma Node.Converted.defined {defined : List String} {good : Json → Prop} {node : Node}
    (converted : node.Converted defined good) {target : String} (refers : node.Refers target) :
    target ∈ defined := by
  induction refers with
  | here =>
    obtain ⟨⟨-, mem⟩, -, -⟩ := converted
    exact mem
  | child mem _ ih =>
    obtain ⟨-, -, children⟩ := converted
    exact ih (children _ mem)

lemma Node.Converted.described {defined : List String} {good : Json → Prop} {node : Node}
    (converted : node.Converted defined good) (description : String) :
    (node.described description).Converted defined good := by
  obtain ⟨layer, examples, children⟩ := converted
  exact .mk layer examples children

namespace Event

variable {defined : List String} {good : Json → Prop}

lemma converted_function {args : Node} (converted : args.Converted defined good) :
    (Node.of (.function args (.of .void))).Converted defined good := by
  refine .of trivial ?_
  rintro child mem
  rcases List.mem_pair.mp mem with rfl | rfl
  · exact converted
  · exact .of trivial nofun

/-- A callback comes after arguments that conversion made. -/
lemma converted_signature {args : List Node} {ack : Node}
    (written : ∀ item ∈ args, item.Converted defined good) (reply : ack.Converted defined good) :
    (Node.procedure (args ++ [.of (.function ack (.of .void))]) none).Converted defined good := by
  refine converted_function (.of trivial ?_)
  simp only [Kind.children, Option.toList_none, List.append_nil]
  intro item mem
  rcases List.mem_append.mp mem with mem | mem
  · exact written item mem
  · obtain rfl := List.mem_singleton.mp mem
    exact converted_function reply

lemma converted_arguments {payload : Node} (converted : payload.Converted defined good)
    {items : List Node} {rest : Option Node}
    (parts : payload.tupleParts?.getD ([payload], none) = (items, rest)) :
    ∀ item ∈ items ++ rest.toList, item.Converted defined good := by
  rcases Node.arguments_cases parts with ⟨notes, rfl⟩ | ⟨-, rfl, rfl⟩
  · obtain ⟨-, -, children⟩ := converted
    exact children
  · simpa using converted

/-- The handler of an event that conversion made is one that conversion could make. -/
lemma handlerOf_converted {event : Event} (payload : event.payload.Converted defined good)
    (reply : ∀ ack, event.ack = some ack → ack.Converted defined good) (maxOverloads : Nat) :
    (event.handlerOf maxOverloads).Converted defined good := by
  suffices (handler event.payload event.ack maxOverloads).Converted defined good by
    rw [handlerOf]
    cases event.description with
    | none => exact this
    | some description => exact this.described description
  rcases parts : event.payload.tupleParts?.getD ([event.payload], none) with ⟨items, rest⟩
  have each := converted_arguments payload parts
  cases acked : event.ack with
  | none =>
    simp only [handler, parts]
    exact converted_function (.of trivial each)
  | some ack =>
    have reply := reply ack acked
    simp only [handler, parts]
    cases rest with
    | none =>
      rw [Option.toList_none, List.append_nil] at each
      exact converted_signature each reply
    | some rest =>
      have written (count : Nat) := forall_written (P := Node.Converted defined good)
        (fun _ description converted => converted.described description) each count
      cases maxOverloads with
      | zero => exact converted_signature (written 0) reply
      | succ most =>
        refine .of trivial ?_
        intro child mem
        obtain ⟨count, -, rfl⟩ := List.mem_map.mp mem
        exact converted_signature (written count) reply

end Event

namespace Manifest

variable {manifest : Manifest} {contract : Contract}

/-- Whether a tree is one that the conversion of a manifest can make. -/
abbrev Makes (manifest : Manifest) (node : Node) : Prop :=
  node.Converted manifest.definitions.names fun _ => True

lemma makes_resolve (converted : manifest.toContract = .ok contract) {target : String}
    (mem : target ∈ manifest.definitions.names) :
    manifest.Makes (contract.definitions.resolve target) :=
  resolve_converted anything_hereditary manifest.holds_anything.definitions
    (definitions_of_toContract converted) mem

lemma keeps_makes (converted : manifest.toContract = .ok contract) (depth : Nat)
    (patterns : PatternReader) :
    (contract.setting depth patterns).Keeps manifest.Makes where
  child := by
    rintro kind notes ⟨-, -, children⟩
    exact children
  follow := by
    rintro key target notes ⟨⟨-, defined⟩, -, -⟩
    exact makes_resolve converted defined

lemma unbroken_makes (converted : manifest.toContract = .ok contract) (depth : Nat)
    (patterns : PatternReader) (node : Node)
    (input : Option Json) (made : manifest.Makes node) :
    Unbroken .crash ((contract.setting depth patterns).library.validate node input) :=
  Node.unbroken_validate (fun _ mem => makes_resolve converted mem) made depth input

lemma closed_definitions (converted : manifest.toContract = .ok contract) (depth : Nat)
    (patterns : PatternReader) :
    (contract.setting depth patterns).Closed (· ∈ manifest.definitions.names) :=
  fun _ mem _ refers => (makes_resolve converted mem).defined refers

/-- The digest tells definitions apart, when their numbers are regular and it tells their texts
apart. -/
lemma distinguishes (converted : manifest.toContract = .ok contract)
    (regular : ∀ field ∈ manifest.definitions, field.2.Regular)
    (apart : ∀ a ∈ manifest.definitions.names, ∀ b ∈ manifest.definitions.names,
      Digest.ofText (contract.definitions.canonicalText a) =
        Digest.ofText (contract.definitions.canonicalText b) →
      contract.definitions.canonicalText a = contract.definitions.canonicalText b)
    (depth : Nat) (patterns : PatternReader) :
    (contract.setting depth patterns).Distinguishes (· ∈ manifest.definitions.names) :=
  fun a b mem also same => canonicalText_injective regular (definitions_of_toContract converted)
    mem also (apart a mem b also same)

/-- Where no name is defined, all validations end, as long as nothing bad is met. -/
lemma finishes_of_no_definitions {U : Type} {depicter : Depicter U}
    {parts : Direction → Kind Node → List (Node × Direction)} {bad : Kind Node → Bool}
    {calls : List (Node × Direction)} (converted : manifest.toContract = .ok contract)
    (none : manifest.definitions = []) (composes : depicter.Composes parts bad) (depth : Nat)
    (patterns : PatternReader)
    (fine : ∀ call ∈ calls,
      manifest.Makes call.1 ∧ ¬ Meets contract.definitions parts bad call.1 call.2) :
    depicter.Finishes (contract.setting depth patterns) calls := by
  intro visits results later runs node input mem
  have made := (runs.fine composes (keeps_makes converted depth patterns) fine).1 node input mem
  rw [Makes, none] at made
  exact Node.unbroken_of_no_definitions made depth input

end Manifest

namespace Contract

variable {contract : Contract} {options : TypeOptions} {call : Node × Direction}

lemma mem_documentedCalls : call ∈ contract.documentedCalls ↔
    ∃ ns ∈ contract.namespaces, ∃ event ∈ ns.events, call ∈ event.documentedCalls := by
  simp [documentedCalls, Namespace.documentedCalls]

lemma mem_typedCalls : call ∈ contract.typedCalls options ↔
    ∃ ns ∈ contract.namespaces, ∃ event ∈ ns.events, call = event.typedCall options := by
  simp only [typedCalls, Namespace.typedCalls, Namespace.typedCallsIn, Namespace.eventsIn,
    List.mem_flatMap, List.mem_append, List.mem_map, List.mem_filter, decide_eq_true_eq]
  constructor
  · rintro ⟨ns, inside, ⟨event, ⟨mem, -⟩, rfl⟩ | ⟨event, ⟨mem, -⟩, rfl⟩⟩
    · exact ⟨ns, inside, event, mem, rfl⟩
    · exact ⟨ns, inside, event, mem, rfl⟩
  · rintro ⟨ns, inside, event, mem, rfl⟩
    refine ⟨ns, inside, ?_⟩
    cases flow : event.direction with
    | input => exact .inl ⟨event, ⟨mem, flow⟩, rfl⟩
    | output => exact .inr ⟨event, ⟨mem, flow⟩, rfl⟩

end Contract

namespace Manifest

variable {manifest : Manifest} {contract : Contract} {call : Node × Direction}

lemma makes_documented (converted : manifest.toContract = .ok contract)
    (called : call ∈ contract.documentedCalls) : manifest.Makes call.1 := by
  obtain ⟨ns, inside, event, mem, here⟩ := Contract.mem_documentedCalls.mp called
  obtain ⟨payload, reply⟩ :=
    namespace_converted anything_hereditary manifest.holds_anything converted inside mem
  rcases List.mem_cons.mp here with rfl | here
  · exact payload
  · obtain ⟨ack, acked, rfl⟩ := Option.map_eq_some_iff.mp (Option.mem_toList.mp here)
    exact reply ack acked

lemma makes_typed (converted : manifest.toContract = .ok contract) (options : TypeOptions)
    (called : call ∈ contract.typedCalls options) : manifest.Makes call.1 := by
  obtain ⟨ns, inside, event, mem, rfl⟩ := Contract.mem_typedCalls.mp called
  obtain ⟨payload, reply⟩ :=
    namespace_converted anything_hereditary manifest.holds_anything converted inside mem
  exact Event.handlerOf_converted payload reply _

end Manifest

/-- Whether a kind that has no documented view is met from a node, through documented parts. -/
abbrev Node.MeetsUndocumented (definitions : Definitions) (node : Node) (direction : Direction) :
    Prop :=
  Meets definitions Kind.documentedParts Kind.isUndocumented node direction

/-- Where no kind without documented view is met, there are no functions among the arguments. -/
lemma Node.plain_of_documented {definitions : Definitions} {node : Node} {direction : Direction}
    (fine : ¬ node.MeetsUndocumented definitions direction) : node.Plain := by
  have applied {node : Node} (function : node.isFunction = true) :
      node.MeetsUndocumented definitions direction := by
    obtain ⟨kind, notes⟩ := node
    cases kind with
    | function args returns => exact .here rfl
    | _ => cases function
  constructor
  · exact Bool.eq_false_iff.mpr fun function => fine (applied function)
  · intro items rest parts item mem
    refine Bool.eq_false_iff.mpr fun function => fine ?_
    obtain ⟨kind, notes⟩ := node
    cases kind with
    | tuple _ _ =>
      cases parts
      exact .part (List.mem_map_of_mem (f := (·, direction)) mem) (applied function)
    | _ => cases parts

namespace Event

variable {definitions : Definitions} {maxOverloads : Nat} {event : Event}

/-- Whether there is a view of all that is documented of an event, and of all that its handler
shows. -/
structure Viewable (definitions : Definitions) (maxOverloads : Nat) (event : Event) : Prop where
  documented : ∀ call ∈ event.documentedCalls, ¬ call.1.MeetsUndocumented definitions call.2
  shown : ∀ call ∈ event.shownCalls maxOverloads, ¬ call.1.MeetsCustom definitions call.2

/-- The handler of an event is viewable when what it shows is. -/
lemma viewable_iff : event.Viewable definitions maxOverloads ↔
    (∀ call ∈ event.documentedCalls, ¬ call.1.MeetsUndocumented definitions call.2) ∧
      ¬ (event.handlerOf maxOverloads).MeetsCustom definitions event.direction := by
  have shows (documented : ∀ call ∈ event.documentedCalls,
      ¬ call.1.MeetsUndocumented definitions call.2) :
      (event.handlerOf maxOverloads).MeetsCustom definitions event.direction ↔
        ∃ call ∈ event.shownCalls maxOverloads, call.1.MeetsCustom definitions call.2 := by
    refine meetsCustom_handlerOf (Node.plain_of_documented (documented _ List.mem_cons_self)) ?_
    intro ack acked
    refine Node.plain_of_documented (documented (ack, event.direction.flip) ?_)
    simp [documentedCalls, acked]
  constructor
  · rintro ⟨documented, shown⟩
    refine ⟨documented, fun meets => ?_⟩
    obtain ⟨call, mem, meets⟩ := (shows documented).mp meets
    exact shown call mem meets
  · rintro ⟨documented, handled⟩
    exact ⟨documented, fun call mem meets => handled ((shows documented).mpr ⟨call, mem, meets⟩)⟩

/-- A handler shows the whole payload, unless further arguments are left out before a callback. -/
lemma shownCalls_eq (whole : event.ack = none ∨ maxOverloads ≠ 0 ∨
      event.payload.withoutRest = event.payload) :
    event.shownCalls maxOverloads = event.documentedCalls := by
  have same : event.shownPayload maxOverloads = event.payload := by
    unfold shownPayload
    split
    · rename_i acked
      rcases whole with none | positive | same
      · rw [acked] at none
        cases none
      · exact absurd rfl positive
      · exact same
    · rfl
  rw [shownCalls, same, documentedCalls]

lemma meetsCustom_shownPayload {direction : Direction}
    (meets : (event.shownPayload maxOverloads).MeetsCustom definitions direction) :
    event.payload.MeetsCustom definitions direction := by
  unfold shownPayload at meets
  split at meets
  · rcases parts : event.payload.tupleParts?.getD ([event.payload], none) with ⟨items, rest⟩
    obtain ⟨item, mem, meets⟩ := (meetsCustom_withoutRest parts).mp meets
    exact (meetsCustom_arguments parts).mpr ⟨item, List.mem_append_left _ mem, meets⟩
  · exact meets

/-- An event is viewable when no kind without documented view is met from it at all. -/
lemma viewable_of_parts (fine : ∀ call ∈ event.documentedCalls,
      ¬ Meets definitions Kind.parts Kind.isUndocumented call.1 call.2) :
    event.Viewable definitions maxOverloads where
  documented call mem meets :=
    fine call mem (meets.mono Kind.documentedParts_subset fun _ is => is)
  shown call mem meets := by
    have wider (kind : Kind Node) (is : kind.isCustom) : kind.isUndocumented := by
      cases kind with
      | custom _ => rfl
      | _ => cases is
    have everything {node : Node} {direction : Direction}
        (meets : node.MeetsCustom definitions direction) :
        Meets definitions Kind.parts Kind.isUndocumented node direction :=
      meets.mono (fun _ _ => List.Subset.refl _) wider
    rcases List.mem_cons.mp mem with rfl | mem
    · exact fine _ List.mem_cons_self (everything (meetsCustom_shownPayload meets))
    · exact fine call (List.mem_cons_of_mem _ mem) (everything meets)

end Event

namespace Contract

variable {contract : Contract} {options : TypeOptions}

/-- Whether all events of a contract are viewable. -/
def Viewable (contract : Contract) (maxOverloads : Nat) : Prop :=
  ∀ ns ∈ contract.namespaces, ∀ event ∈ ns.events,
    event.Viewable contract.definitions maxOverloads

lemma viewable_iff : contract.Viewable options.maxOverloads ↔
    (∀ call ∈ contract.documentedCalls, ¬ call.1.MeetsUndocumented contract.definitions call.2) ∧
      ∀ call ∈ contract.typedCalls options, ¬ call.1.MeetsCustom contract.definitions call.2 := by
  constructor
  · intro viewable
    constructor
    · intro call called
      obtain ⟨ns, inside, event, mem, here⟩ := mem_documentedCalls.mp called
      exact (viewable ns inside event mem).documented call here
    · intro call called
      obtain ⟨ns, inside, event, mem, rfl⟩ := mem_typedCalls.mp called
      exact (Event.viewable_iff.mp (viewable ns inside event mem)).2
  · rintro ⟨documented, typed⟩ ns inside event mem
    exact Event.viewable_iff.mpr
      ⟨fun call here => documented call (mem_documentedCalls.mpr ⟨ns, inside, event, mem, here⟩),
        typed _ (mem_typedCalls.mpr ⟨ns, inside, event, mem, rfl⟩)⟩

end Contract

/-- A generation that succeeds has a view of everything that it has to: it met no kind that has no
documented view where there is documentation, and none that nothing is known about in what handlers
show. So nothing unknown is reached from a payload or an acknowledgement at all, unless the payload
has further arguments before a callback and the handler shows none of them. The other way round, a
generation succeeds when there is a view of everything, and its validations end. -/
theorem unsupported_kinds_stop_generation (manifest : Manifest) (contract : Contract)
    (converted : manifest.toContract = .ok contract) (config : Config) (depth : Nat)
    (patterns : PatternReader) :
    (∀ artifacts, contract.generate config depth patterns = .ok artifacts →
      (∀ field ∈ manifest.definitions, field.2.Regular) →
      (∀ a ∈ manifest.definitions.names, ∀ b ∈ manifest.definitions.names,
        Digest.ofText (contract.definitions.canonicalText a) =
          Digest.ofText (contract.definitions.canonicalText b) →
        contract.definitions.canonicalText a = contract.definitions.canonicalText b) →
      contract.Viewable config.types.maxOverloads ∧
        ∀ ns ∈ contract.namespaces, ∀ event ∈ ns.events,
          (event.ack = none ∨ config.types.maxOverloads ≠ 0 ∨
            event.payload.withoutRest = event.payload) →
          ∀ call ∈ event.documentedCalls, ¬ call.1.MeetsCustom contract.definitions call.2) ∧
    (Document.depicter.Finishes (contract.setting depth patterns) contract.documentedCalls →
      (TypeScript.depicter config.types.optional).Finishes (contract.setting depth patterns)
        (contract.typedCalls config.types) →
      (contract.Viewable config.types.maxOverloads →
        ∃ artifacts, contract.generate config depth patterns = .ok artifacts) ∧
      ((∀ ns ∈ contract.namespaces, ∀ event ∈ ns.events, ∀ call ∈ event.documentedCalls,
          ¬ Meets contract.definitions Kind.parts Kind.isUndocumented call.1 call.2) →
        ∃ artifacts, contract.generate config depth patterns = .ok artifacts)) := by
  constructor
  · intro artifacts generated regular apart
    obtain ⟨⟨components, documented⟩, aliases, typed⟩ :=
      (Contract.generates_iff contract config depth patterns).mp ⟨artifacts, generated⟩
    have distinguishes := Manifest.distinguishes converted regular apart depth patterns
    have closed := Manifest.closed_definitions converted depth patterns
    have viewable : contract.Viewable config.types.maxOverloads := Contract.viewable_iff.mpr
      ⟨documented.not_meets Document.uniform Document.composes closed distinguishes
          fun _ called _ => (Manifest.makes_documented converted called).defined,
        typed.not_meets (TypeScript.uniform _) (TypeScript.composes _) closed distinguishes
          fun _ called _ => (Manifest.makes_typed converted _ called).defined⟩
    refine ⟨viewable, fun ns inside event mem whole => ?_⟩
    rw [← Event.shownCalls_eq whole]
    exact (viewable ns inside event mem).shown
  · intro documented typed
    have keeps := Manifest.keeps_makes converted depth patterns
    have unbroken := Manifest.unbroken_makes converted depth patterns
    have generates (viewable : contract.Viewable config.types.maxOverloads) :
        ∃ artifacts, contract.generate config depth patterns = .ok artifacts := by
      obtain ⟨first, second⟩ := Contract.viewable_iff.mp viewable
      refine (Contract.generates_iff contract config depth patterns).mpr ⟨?_, ?_⟩
      · exact documented.succeeds Document.uniform Document.composes keeps unbroken
          fun call called => ⟨Manifest.makes_documented converted called, first call called⟩
      · exact typed.succeeds (TypeScript.uniform _) (TypeScript.composes _) keeps unbroken
          fun call called => ⟨Manifest.makes_typed converted _ called, second call called⟩
    exact ⟨generates, fun fine => generates fun ns inside event mem =>
      Event.viewable_of_parts (fine ns inside event mem)⟩

/-- Animals are fed by name, with more amounts as needed, and the answer tells whether they ate. -/
def barnManifest : Manifest where
  namespaces := [("/", { actions := [("feed", {
    args := some (.array [.object [("type", .string "record"), ("key", .string "string"),
      ("values", .string "number")]])
    rest := some (.string "number")
    ack := some (.array [.string "boolean"]) })] })]

/-- What the manifest of the barn means. -/
def barnContract : Contract where
  namespaces := [{ path := "/", events := [{
    name := "feed"
    direction := .input
    payload := .of (.tuple [.of (.record (.of (.string {})) (.of (.number {})))]
      (some (.of (.number {}))))
    ack := some (.of (.tuple [.of (.boolean false)] none)) }] }]
  definitions := []

theorem barn_kinds_have_views :
    barnManifest.toContract = .ok barnContract ∧
      ∃ artifacts, barnContract.generate {} = .ok artifacts ∧
      ∀ ns ∈ barnContract.namespaces, ∀ event ∈ ns.events, ∀ call ∈ event.documentedCalls,
        ¬ call.1.MeetsCustom barnContract.definitions call.2 := by
  have converted : barnManifest.toContract = .ok barnContract := rfl
  have fine : ∀ ns ∈ barnContract.namespaces, ∀ event ∈ ns.events, ∀ call ∈ event.documentedCalls,
      ¬ Meets barnContract.definitions Kind.parts Kind.isUndocumented call.1 call.2 := by
    simp [barnContract, Event.documentedCalls, Node.of, Meets.mk_iff, Kind.parts, Kind.children,
      Kind.isUndocumented]
  have viewable : barnContract.Viewable ({} : TypeOptions).maxOverloads :=
    fun ns inside event mem => Event.viewable_of_parts (fine ns inside event mem)
  obtain ⟨documented, typed⟩ := Contract.viewable_iff.mp viewable
  obtain ⟨stops, generates⟩ :=
    unsupported_kinds_stop_generation barnManifest barnContract converted {} Library.usualDepth
      Regex.reader
  obtain ⟨-, succeeds⟩ := generates
    (Manifest.finishes_of_no_definitions converted rfl Document.composes _ _ fun call called =>
      ⟨Manifest.makes_documented converted called, documented call called⟩)
    (Manifest.finishes_of_no_definitions converted rfl (TypeScript.composes _) _ _
      fun call called =>
      ⟨Manifest.makes_typed converted _ called, typed call called⟩)
  obtain ⟨artifacts, generated⟩ := succeeds fine
  obtain ⟨-, whole⟩ := stops artifacts generated
    (fun field mem => absurd mem List.not_mem_nil) (fun name mem => absurd mem List.not_mem_nil)
  exact ⟨converted, artifacts, generated, fun ns inside event mem =>
    whole ns inside event mem (.inr (.inl (by decide)))⟩

/-- Horses are told apart by symbols, in the keys of records that come as further arguments. -/
def stableManifest : Manifest where
  namespaces := [("/", { actions := [("feed", {
    args := some (.array [])
    rest := some (.object [("type", .string "record"),
      ("key", .object [("type", .string "symbol")]), ("values", .string "string")])
    ack := some (.array []) })] })]

theorem stable_symbols_are_passed_over :
    ∃ contract artifacts, stableManifest.toContract = .ok contract ∧
      contract.generate { types := { maxOverloads := 0 } } = .ok artifacts ∧
      ∃ ns ∈ contract.namespaces, ∃ event ∈ ns.events,
        event.payload.MeetsCustom contract.definitions event.direction := by
  refine ⟨_, _, rfl, rfl, _, List.mem_cons_self, _, List.mem_cons_self, ?_⟩
  exact .part List.mem_cons_self (.part List.mem_cons_self (.here rfl))

end EventContracts
