import EventContracts.Proofs.IdentifierTexts
import EventContracts.Proofs.ReferenceClosure
import Mathlib.Algebra.Order.Group.Multiset
import Mathlib.Tactic.Abel

/-! The names of type declarations. They are those of the aliases, then for every namespace those of
its events and interfaces. An alias never has the name of anything else, and names of different
words end differently, so two declarations can share a name only where the identifiers before the
words do. Whether a name can stand bare depends on nothing but the first word of a path. -/

namespace EventContracts

namespace TypeScript.Draft

variable {setting : Setting} {options : TypeOptions} {draft later : Draft}

/-- The names that are declared for the events of a namespace that flow in a direction. -/
def directionNames (ns : Namespace) (direction : Direction) : List String :=
  (ns.eventsIn direction).map (eventName (Identifier.ofNamespace ns.path)) ++
    [Identifier.ofNamespace ns.path ++ interfaceWord direction]

/-- The names that are declared for a namespace. -/
def namespaceNames (ns : Namespace) : List String :=
  directionNames ns .input ++ directionNames ns .output

/-- The names that are declared, without those of aliases. -/
def declared (draft : Draft) : List String := draft.declarations.map Declaration.name

lemma declared_depicting {α : Type} {view : View α} {a : α}
    (h : depicting view draft = (.ok a, later)) : later.declared = draft.declared := by
  obtain ⟨aliases, -, rfl⟩ := depicting_made h
  rfl

lemma addEvent_declared {namespaceId : String} {members members' : List (Member TypeExpr)}
    {event : Event}
    (h : addEvent setting options namespaceId members event draft = (.ok members', later)) :
    later.declared = draft.declared ++ [eventName namespaceId event] := by
  rw [addEvent] at h
  obtain ⟨type, depicted, made, h⟩ := bind_ok h
  rw [← declared_depicting made]
  obtain ⟨_, middle, added, h⟩ := bind_ok h
  obtain ⟨⟩ := added
  obtain ⟨⟩ := h
  simp [declared, Declaration.name]

lemma addDirection_declared {ns : Namespace} {direction : Direction}
    (h : addDirection setting options ns direction draft = (.ok ⟨⟩, later)) :
    later.declared = draft.declared ++ directionNames ns direction := by
  rw [addDirection] at h
  obtain ⟨members, middle, made, h⟩ := bind_ok h
  have events := foldlM_prefix
    (fun done _ current => current.declared =
      draft.declared ++ done.map (eventName (Identifier.ofNamespace ns.path)))
    (fun done event _ _ current next here added => by
      rw [addEvent_declared added, here]
      simp)
    (by simp) made
  obtain ⟨⟩ := h
  simp only [declared, List.map_append] at events ⊢
  rw [events]
  simp [directionNames, Declaration.name]

lemma addNamespace_declared {ns : Namespace}
    (h : addNamespace setting options ns draft = (.ok ⟨⟩, later)) :
    later.declared = draft.declared ++ namespaceNames ns := by
  rw [addNamespace] at h
  obtain ⟨_, middle, incoming, outgoing⟩ := bind_ok h
  rw [addDirection_declared outgoing, addDirection_declared incoming, namespaceNames,
    List.append_assoc]

lemma names_finish (draft : Draft) :
    draft.finish.map Declaration.name = draft.aliases.names ++ draft.declared := by
  simp only [finish, aliasDeclarations, List.map_append, List.map_map]
  rw [← AliasTable.names_definitions]
  rfl

end TypeScript.Draft

namespace Contract

variable {contract : Contract} {config : Config} {depth : Nat} {patterns : PatternReader}

lemma typed_declared {draft : TypeScript.Draft}
    (h : contract.typed config depth patterns = .ok draft) :
    draft.declared = contract.namespaces.flatMap TypeScript.Draft.namespaceNames :=
  forM_prefix
    (fun done current => current.declared = done.flatMap TypeScript.Draft.namespaceNames)
    (fun done ns _ _ here added => by
      rw [TypeScript.Draft.addNamespace_declared added, here]
      simp)
    rfl (assembled_eq_ok.mp h)

/-- The identifiers of the events that flow in a direction, without the word for it. -/
def eventStems (contract : Contract) (direction : Direction) : List String :=
  contract.namespaces.flatMap fun ns => (ns.eventsIn direction).map fun event =>
    Identifier.ofParts [Identifier.ofNamespace ns.path, event.name]

end Contract

namespace TypeScript.Draft

lemma eventName_eq (namespaceId : String) (event : Event) :
    eventName namespaceId event =
      Identifier.ofParts [namespaceId, event.name] ++ eventWord event.direction := by
  have word (direction : Direction) :
      String.ofList (Identifier.ofText (eventWord direction)) = eventWord direction := by
    cases direction <;> decide +kernel
  rw [← word event.direction]
  simp [eventName, Identifier.ofParts, String.append_assoc]

lemma directionNames_eq (ns : Namespace) (direction : Direction) :
    directionNames ns direction =
      ((ns.eventsIn direction).map fun event =>
        Identifier.ofParts [Identifier.ofNamespace ns.path, event.name] ++ eventWord direction) ++
        [Identifier.ofNamespace ns.path ++ interfaceWord direction] := by
  have flow : ∀ event ∈ ns.eventsIn direction,
      eventName (Identifier.ofNamespace ns.path) event =
        Identifier.ofParts [Identifier.ofNamespace ns.path, event.name] ++ eventWord direction := by
    intro event mem
    have flows : event.direction = direction := by simpa using (List.mem_filter.mp mem).2
    rw [eventName_eq, flows]
  rw [directionNames, List.map_congr_left flow]

end TypeScript.Draft

namespace Contract

open TypeScript.Draft

/-- Up to their order, the declared names are identifiers with one of the three words. -/
lemma names_perm (contract : Contract) :
    (contract.namespaces.flatMap namespaceNames).Perm
      ((contract.eventStems .input).map (· ++ "Action") ++
        contract.namespaceIds.map (· ++ "Actions") ++
        (contract.eventStems .output ++ contract.namespaceIds).map (· ++ "Emission")) := by
  unfold eventStems namespaceIds
  induction contract.namespaces with
  | nil => rfl
  | cons ns rest ih =>
    rw [← Multiset.coe_eq_coe] at ih ⊢
    simp only [List.flatMap_cons, List.map_cons, List.map_append, ← Multiset.coe_add,
      ← Multiset.cons_coe, ← Multiset.singleton_add, namespaceNames, directionNames_eq, eventWord,
      interfaceWord, List.map_map, Multiset.coe_nil, Function.comp_def] at ih ⊢
    rw [ih]
    abel

/-- The last letters of a text. -/
def ending (s : String) : List Char := s.toList.reverse.take 4

/-- The declared names are pairwise different if and only if the identifiers before each of the
words are. -/
lemma nodup_names (contract : Contract) :
    (contract.namespaces.flatMap namespaceNames).Nodup ↔ (contract.eventStems .input).Nodup ∧
      (contract.eventStems .output ++ contract.namespaceIds).Nodup := by
  have append_inj (word : String) : Function.Injective fun s : String => s ++ word :=
    fun a b same => (String.append_left_inj word).mp same
  have action (s : String) : ending (s ++ "Action") = ['n', 'o', 'i', 't'] := by simp [ending]
  have actions (s : String) : ending (s ++ "Actions") = ['s', 'n', 'o', 'i'] := by simp [ending]
  have emission (s : String) : ending (s ++ "Emission") = ['n', 'o', 'i', 's'] := by simp [ending]
  rw [contract.names_perm.nodup_iff, List.nodup_append, List.nodup_append,
    List.nodup_map_iff (append_inj _), List.nodup_map_iff (append_inj _),
    List.nodup_map_iff (append_inj _)]
  constructor
  · rintro ⟨⟨incoming, -, -⟩, outgoing, -⟩
    exact ⟨incoming, outgoing⟩
  · rintro ⟨incoming, outgoing⟩
    refine ⟨⟨incoming, (List.nodup_append.mp outgoing).2.1, ?_⟩, outgoing, ?_⟩
    · intro a left b right same
      obtain ⟨x, -, rfl⟩ := List.mem_map.mp left
      obtain ⟨y, -, rfl⟩ := List.mem_map.mp right
      have := congrArg ending same
      rw [action, actions] at this
      exact absurd this (by decide)
    · intro a left b right same
      obtain ⟨y, -, rfl⟩ := List.mem_map.mp right
      have last := congrArg ending same
      rcases List.mem_append.mp left with left | left
      · obtain ⟨x, -, rfl⟩ := List.mem_map.mp left
        rw [action, emission] at last
        exact absurd last (by decide)
      · obtain ⟨x, -, rfl⟩ := List.mem_map.mp left
        rw [actions, emission] at last
        exact absurd last (by decide)

end Contract

namespace TypeScript.Draft

/-- A name that is declared for a namespace goes on from its identifier to one of the words. -/
lemma mem_namespaceNames {ns : Namespace} {name : String} (mem : name ∈ namespaceNames ns) :
    ∃ middle, (∀ c ∈ middle, Identifier.isWordChar c) ∧ ∃ word ∈ ["Action", "Actions", "Emission"],
      name = Identifier.ofNamespace ns.path ++ String.ofList middle ++ word := by
  have each (direction : Direction) (here : name ∈ directionNames ns direction) :
      ∃ middle, (∀ c ∈ middle, Identifier.isWordChar c) ∧
        ∃ word ∈ ["Action", "Actions", "Emission"],
          name = Identifier.ofNamespace ns.path ++ String.ofList middle ++ word := by
    rw [directionNames_eq] at here
    rcases List.mem_append.mp here with ofEvent | ofInterface
    · obtain ⟨event, -, rfl⟩ := List.mem_map.mp ofEvent
      refine ⟨Identifier.ofText event.name, fun c => Identifier.mem_ofText, eventWord direction,
        by cases direction <;> simp [eventWord], ?_⟩
      simp [Identifier.ofParts, Identifier.ofText_ofNamespace]
    · obtain rfl := List.mem_singleton.mp ofInterface
      refine ⟨[], fun c here => absurd here List.not_mem_nil, interfaceWord direction,
        by cases direction <;> simp [interfaceWord], ?_⟩
      simp
  exact (List.mem_append.mp mem).elim (each .input) (each .output)

lemma isBare_of_mem_namespaceNames {ns : Namespace} {name : String}
    (mem : name ∈ namespaceNames ns) :
    Identifier.isBare name = !Identifier.startsWithDigit ns.path := by
  obtain ⟨middle, letters, word, which, rfl⟩ := mem_namespaceNames mem
  have words : ∀ w ∈ ["Action", "Actions", "Emission"], w.toList.all Identifier.isWordChar := by
    decide +kernel
  have suffix : Identifier.ofNamespace ns.path ++ String.ofList middle ++ word =
      Identifier.ofNamespace ns.path ++ String.ofList (middle ++ word.toList) := by
    simp [String.append_assoc]
  rw [suffix, Identifier.isBare_ofNamespace_append]
  intro c inside
  exact (List.mem_append.mp inside).elim (letters c) (List.all_eq_true.mp (words word which) c)

/-- Names that are declared for a namespace do not end with a digit. -/
lemma namespaceNames_last {ns : Namespace} {name : String} (mem : name ∈ namespaceNames ns) :
    name.toList.getLast? = some 'n' ∨ name.toList.getLast? = some 's' := by
  obtain ⟨middle, -, word, which, rfl⟩ := mem_namespaceNames mem
  simp only [List.mem_cons, List.not_mem_nil, or_false] at which
  rcases which with rfl | rfl | rfl <;> simp

lemma interface_mem (ns : Namespace) :
    Identifier.ofNamespace ns.path ++ interfaceWord .input ∈ namespaceNames ns := by
  simp [namespaceNames, directionNames]

end TypeScript.Draft

namespace AliasTable

lemma toList_numberedName (stem : String) (i : Nat) :
    (numberedName stem i).toList = stem.toList ++ Nat.toDigits 10 (i + 1) := by
  simp [numberedName]

/-- A numbered name ends with a digit. -/
lemma numberedName_last (stem : String) (i : Nat) :
    ∃ digit, (numberedName stem i).toList.getLast? = some digit ∧ digit.isDigit := by
  have nonempty : Nat.toDigits 10 (i + 1) ≠ [] := Nat.toDigits_ne_nil
  refine ⟨(Nat.toDigits 10 (i + 1)).getLast nonempty, ?_, ?_⟩
  · rw [toList_numberedName, List.getLast?_append_of_ne_nil _ nonempty,
      List.getLast?_eq_some_getLast nonempty]
  · exact Nat.isDigit_of_mem_toDigits (by decide) (by decide) (List.getLast_mem nonempty)

lemma numberedName_isBare (i : Nat) : Identifier.isBare (numberedName "Type" i) := by
  have stem : "Type".toList = ['T', 'y', 'p', 'e'] := by rfl
  have chars := toList_numberedName "Type" i
  rw [stem] at chars
  rw [← String.ofList_toList (s := numberedName "Type" i), chars, Identifier.isBare_ofList]
  · rfl
  · intro c mem
    rcases List.mem_append.mp mem with letter | digit
    · have letters : ['T', 'y', 'p', 'e'].all Identifier.isWordChar := by decide
      exact List.all_eq_true.mp letters c letter
    · have isDigit : c.isDigit := Nat.isDigit_of_mem_toDigits (by decide) (by decide) digit
      simp [Identifier.isWordChar, isDigit]
  · simp

end AliasTable

open TypeScript.Draft

/-- The names of the type declarations are pairwise different if and only if the identifiers of the
incoming events are, and those of the outgoing events and of the namespaces together are; and all of
them can stand bare if and only if no path starts with a digit. -/
theorem declared_names_usable_iff (contract : Contract) (config : Config) (depth : Nat)
    (patterns : PatternReader)
    (artifacts : Artifacts) (generated : contract.generate config depth patterns = .ok artifacts) :
    ((artifacts.declarations.map TypeScript.Declaration.name).Nodup ↔
      (contract.eventStems .input).Nodup ∧
        (contract.eventStems .output ++ contract.namespaceIds).Nodup) ∧
    ((∀ declaration ∈ artifacts.declarations, Identifier.isBare declaration.name) ↔
      ∀ ns ∈ contract.namespaces, Identifier.startsWithDigit ns.path = false) := by
  obtain ⟨draft, typed, -, types, rfl⟩ := Contract.generate_ok generated
  have steady := (Contract.typed_sound types).steady
  have declared := Contract.typed_declared types
  have names := names_finish typed
  have aliases : ∀ name ∈ typed.aliases.names, ∃ i, AliasTable.numberedName "Type" i = name := by
    intro name mem
    obtain ⟨i, -, same⟩ := steady.numbered.mem_names.mp mem
    rw [steady.stem] at same
    exact ⟨i, same⟩
  constructor
  · rw [names, declared, ← contract.nodup_names, List.nodup_append]
    refine ⟨fun all => all.2.1, fun nodup => ⟨steady.numbered.names_nodup, nodup, ?_⟩⟩
    rintro a left b right rfl
    obtain ⟨i, rfl⟩ := aliases a left
    obtain ⟨ns, -, here⟩ := List.mem_flatMap.mp right
    obtain ⟨digit, last, isDigit⟩ := AliasTable.numberedName_last "Type" i
    rcases namespaceNames_last here with other | other <;>
      · rw [last] at other
        obtain rfl := Option.some.inj other
        exact absurd isDigit (by decide)
  · have all : (∀ declaration ∈ typed.finish, Identifier.isBare declaration.name) ↔
        ∀ name ∈ typed.aliases.names ++ typed.declared, Identifier.isBare name := by
      rw [← names]
      simp
    rw [all, declared]
    constructor
    · intro bare ns mem
      have here := bare _ (List.mem_append_right _
        (List.mem_flatMap.mpr ⟨ns, mem, interface_mem ns⟩))
      rw [isBare_of_mem_namespaceNames (interface_mem ns)] at here
      simpa using here
    · intro letters name mem
      rcases List.mem_append.mp mem with numbered | mem
      · obtain ⟨i, rfl⟩ := aliases name numbered
        exact AliasTable.numberedName_isBare i
      · obtain ⟨ns, inside, here⟩ := List.mem_flatMap.mp mem
        rw [isBare_of_mem_namespaceNames here, letters ns inside]
        rfl

/-- Two namespaces, with events of one name in both and in both directions. -/
def parkContract : Contract where
  namespaces := [
    { path := "/", events := [
      { name := "plant", direction := .input, payload := .of (.tuple [] none) },
      { name := "plant", direction := .output, payload := .of (.tuple [] none) }] },
    { path := "/pond", events := [
      { name := "plant", direction := .input, payload := .of (.tuple [] none) }] }]
  definitions := []

theorem park_names_are_usable :
    ∃ artifacts, parkContract.generate {} = .ok artifacts ∧
      (artifacts.declarations.map TypeScript.Declaration.name).Nodup ∧
      ∀ declaration ∈ artifacts.declarations, Identifier.isBare declaration.name := by
  have succeeds : (parkContract.generate {}).isOk = true := by decide +kernel
  cases generated : parkContract.generate {} with
  | error cause =>
    rw [generated] at succeeds
    cases succeeds
  | ok artifacts =>
    obtain ⟨distinct, bare⟩ := declared_names_usable_iff parkContract {} _ _ artifacts generated
    exact ⟨artifacts, rfl, distinct.mpr (by decide +kernel), bare.mpr (by decide +kernel)⟩

/-- Two events with one identifier, in a namespace whose path starts with a digit. -/
def paddockManifest : Manifest where
  namespaces := [("/2nd", { actions := [("newGate", {}), ("new-gate", {})] })]

theorem paddock_names_are_not_usable :
    ∃ contract artifacts, paddockManifest.toContract = .ok contract ∧
      contract.generate {} = .ok artifacts ∧
      ¬ (artifacts.declarations.map TypeScript.Declaration.name).Nodup ∧
      ∃ declaration ∈ artifacts.declarations, Identifier.isBare declaration.name = false := by
  refine ⟨_, _, rfl, rfl, by decide +kernel, ?_⟩
  exact ⟨_, List.mem_cons_self, by decide +kernel⟩

end EventContracts
