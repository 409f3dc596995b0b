import EventContracts.Proofs.MetKinds

/-! What the handler of an event shows. The typed view of an event is that of the function which
handles it: the payload becomes its parameters, and the acknowledgement those of a callback, where
data flows back. A handler shows the same kinds as the payload and the acknowledgement do, but for
one case: before a callback, further arguments are written out one by one, and with a bound of zero
they do not appear at all. -/

namespace EventContracts

/-- Whether neither a node nor an item of it, when it is a tuple, is a function. -/
def Node.Plain (node : Node) : Prop :=
  node.isFunction = false ∧ ∀ items rest, node.tupleParts? = some (items, rest) →
    ∀ item ∈ items ++ rest.toList, item.isFunction = false

/-- Whether a kind that nothing is known about is met from a node. -/
abbrev Node.MeetsCustom (definitions : Definitions) (node : Node) (direction : Direction) : Prop :=
  Meets definitions Kind.parts Kind.isCustom node direction

/-- A payload without its further arguments. -/
def Node.withoutRest (payload : Node) : Node :=
  match payload.kind with
  | .tuple items _ => .mk (.tuple items none) payload.notes
  | _ => payload

section Handlers

variable {definitions : Definitions} {direction : Direction} {notes : Notes}

lemma paramDirection_of_plain {node : Node} (plain : node.isFunction = false) :
    TypeScript.paramDirection direction node = direction := by
  rw [TypeScript.paramDirection, plain]
  rfl

/-- A layer whose parts are nodes that are reached in its own direction shows what they do. -/
lemma meetsCustom_layer {kind : Kind Node} {nodes : List Node}
    (parts : kind.parts direction = nodes.map (·, direction)) (known : kind.isCustom = false)
    (own : ∀ key target, kind ≠ .reference key target) :
    (Node.mk kind notes).MeetsCustom definitions direction ↔
      ∃ node ∈ nodes, node.MeetsCustom definitions direction := by
  rw [Node.MeetsCustom, Meets.mk_iff, known, parts]
  constructor
  · rintro (is | ⟨part, mem, meets⟩ | ⟨key, target, same, -⟩)
    · cases is
    · obtain ⟨node, inside, rfl⟩ := List.mem_map.mp mem
      exact ⟨node, inside, meets⟩
    · exact absurd same (own key target)
  · rintro ⟨node, inside, meets⟩
    exact .inr (.inl ⟨(node, direction), List.mem_map_of_mem inside, meets⟩)

lemma meetsCustom_tuple {items : List Node} {rest : Option Node} :
    (Node.mk (.tuple items rest) notes).MeetsCustom definitions direction ↔
      ∃ item ∈ items ++ rest.toList, item.MeetsCustom definitions direction :=
  meetsCustom_layer rfl rfl nofun

lemma meetsCustom_union {options : List Node} :
    (Node.mk (.union options) notes).MeetsCustom definitions direction ↔
      ∃ option ∈ options, option.MeetsCustom definitions direction :=
  meetsCustom_layer rfl rfl nofun

/-- A function that returns nothing shows what its arguments do. -/
lemma meetsCustom_function {args : Node} :
    (Node.mk (.function args (.of .void)) notes).MeetsCustom definitions direction ↔
      ∃ part ∈ args.argumentParts direction, part.1.MeetsCustom definitions part.2 := by
  rw [Node.MeetsCustom, Meets.mk_iff]
  constructor
  · rintro (is | ⟨part, mem, meets⟩ | ⟨_, _, same, -⟩)
    · cases is
    · rcases List.mem_append.mp mem with mem | mem
      · exact ⟨part, mem, meets⟩
      · obtain rfl := List.mem_singleton.mp mem
        rcases Meets.mk_iff.mp meets with is | ⟨_, none, -⟩ | ⟨_, _, same, -⟩
        · cases is
        · cases none
        · cases same
    · cases same
  · rintro ⟨part, mem, meets⟩
    exact .inr (.inl ⟨part, List.mem_append_left _ mem, meets⟩)

/-- Plain arguments are reached as if they were no arguments. -/
lemma meetsCustom_argumentParts {args : Node} (plain : args.Plain) :
    (∃ part ∈ args.argumentParts direction, part.1.MeetsCustom definitions part.2) ↔
      args.MeetsCustom definitions direction := by
  obtain ⟨kind, notes⟩ := args
  cases parts : (Node.mk kind notes).tupleParts? with
  | none =>
    simp only [Node.argumentParts, parts, List.mem_singleton, exists_eq_left]
    rw [paramDirection_of_plain plain.1]
  | some found =>
    obtain ⟨items, rest⟩ := found
    have tuple : kind = .tuple items rest := by
      cases kind <;> simp_all [Node.tupleParts?, Node.kind]
    subst tuple
    have directions : (Node.mk (.tuple items rest) notes).argumentParts direction =
        (items ++ rest.toList).map (·, direction) := by
      have each : ∀ item ∈ items, (item, TypeScript.paramDirection direction item) =
          (item, direction) := by
        intro item mem
        rw [paramDirection_of_plain (plain.2 _ _ parts item (List.mem_append_left _ mem))]
      simp only [Node.argumentParts, parts, List.map_append, List.map_congr_left each]
    rw [directions, meetsCustom_tuple]
    simp only [List.mem_map, exists_exists_and_eq_and]

lemma meetsCustom_described {node : Node} {description : String} :
    (node.described description).MeetsCustom definitions direction ↔
      node.MeetsCustom definitions direction := by
  obtain ⟨kind, notes⟩ := node
  exact ⟨Meets.of_notes, Meets.of_notes⟩

/-- The arguments of a payload are the items of a tuple, or what else it is. -/
lemma Node.arguments_cases {payload : Node} {items : List Node} {rest : Option Node}
    (parts : payload.tupleParts?.getD ([payload], none) = (items, rest)) :
    (∃ notes, payload = .mk (.tuple items rest) notes) ∨
      payload.withoutRest = payload ∧ items = [payload] ∧ rest = none := by
  obtain ⟨kind, notes⟩ := payload
  cases kind with
  | tuple items rest =>
    obtain ⟨rfl, rfl⟩ := Prod.mk.inj parts
    exact .inl ⟨notes, rfl⟩
  | _ =>
    obtain ⟨rfl, rfl⟩ := Prod.mk.inj parts
    exact .inr ⟨rfl, rfl, rfl⟩

lemma meetsCustom_arguments {payload : Node} {items : List Node} {rest : Option Node}
    (parts : payload.tupleParts?.getD ([payload], none) = (items, rest)) :
    payload.MeetsCustom definitions direction ↔
      ∃ item ∈ items ++ rest.toList, item.MeetsCustom definitions direction := by
  rcases Node.arguments_cases parts with ⟨notes, rfl⟩ | ⟨-, rfl, rfl⟩
  · exact meetsCustom_tuple
  · simp

lemma meetsCustom_withoutRest {payload : Node} {items : List Node} {rest : Option Node}
    (parts : payload.tupleParts?.getD ([payload], none) = (items, rest)) :
    payload.withoutRest.MeetsCustom definitions direction ↔
      ∃ item ∈ items, item.MeetsCustom definitions direction := by
  rcases Node.arguments_cases parts with ⟨notes, rfl⟩ | ⟨same, rfl, rfl⟩
  · refine meetsCustom_tuple.trans ?_
    rw [Option.toList_none, List.append_nil]
  · rw [same]
    simp

lemma Node.Plain.arguments {payload : Node} (plain : payload.Plain) {items : List Node}
    {rest : Option Node} (parts : payload.tupleParts?.getD ([payload], none) = (items, rest)) :
    ∀ item ∈ items ++ rest.toList, item.isFunction = false := by
  rcases Node.arguments_cases parts with ⟨notes, rfl⟩ | ⟨-, rfl, rfl⟩
  · exact plain.2 items rest rfl
  · simpa using plain.1

/-- A procedure shows its arguments. -/
lemma meetsCustom_procedure {items : List Node} {rest : Option Node}
    (plain : ∀ item ∈ items ++ rest.toList, item.isFunction = false) :
    (Node.procedure items rest).MeetsCustom definitions direction ↔
      ∃ item ∈ items ++ rest.toList, item.MeetsCustom definitions direction := by
  have args : (Node.of (.tuple items rest)).Plain := by
    refine ⟨rfl, ?_⟩
    rintro _ _ ⟨⟩
    exact plain
  exact meetsCustom_function.trans ((meetsCustom_argumentParts args).trans meetsCustom_tuple)

/-- A procedure with a callback shows its other arguments, and what the callback is given. -/
lemma meetsCustom_signature {items : List Node} {ack : Node}
    (plain : ∀ item ∈ items, item.isFunction = false) (reply : ack.Plain) :
    (Node.procedure (items ++ [.of (.function ack (.of .void))]) none).MeetsCustom definitions
        direction ↔
      (∃ item ∈ items, item.MeetsCustom definitions direction) ∨
        ack.MeetsCustom definitions direction.flip := by
  have callback : (Node.of (.function ack (.of .void))).MeetsCustom definitions direction.flip ↔
      ack.MeetsCustom definitions direction.flip :=
    meetsCustom_function.trans (meetsCustom_argumentParts reply)
  refine meetsCustom_function.trans ?_
  rw [← callback]
  simp only [Node.argumentParts, Node.of, Node.tupleParts?, Node.kind, Option.toList, List.map_nil,
    List.append_nil, List.map_append, List.map_cons]
  constructor
  · rintro ⟨part, mem, meets⟩
    rcases List.mem_append.mp mem with mem | mem
    · obtain ⟨item, inside, rfl⟩ := List.mem_map.mp mem
      rw [paramDirection_of_plain (plain item inside)] at meets
      exact .inl ⟨item, inside, meets⟩
    · obtain rfl := List.mem_singleton.mp mem
      exact .inr meets
  · rintro (⟨item, inside, meets⟩ | meets)
    · refine ⟨(item, direction), List.mem_append_left _ ?_, meets⟩
      refine List.mem_map.mpr ⟨item, inside, ?_⟩
      rw [paramDirection_of_plain (plain item inside)]
    · exact ⟨_, List.mem_append_right _ List.mem_cons_self, meets⟩

/-- What holds of arguments whatever their descriptions are holds when further ones are written
out. -/
lemma forall_written {P : Node → Prop}
    (described : ∀ node description, P node → P (node.described description)) {items : List Node}
    {rest : Node} (each : ∀ item ∈ items ++ [rest], P item) (count : Nat) :
    ∀ item ∈ items ++ (List.range count).map fun i => Event.numbered rest (i + 1), P item := by
  intro item mem
  rcases List.mem_append.mp mem with mem | mem
  · exact each item (List.mem_append_left _ mem)
  · obtain ⟨i, -, rfl⟩ := List.mem_map.mp mem
    exact described rest _ (each rest (List.mem_append_right _ List.mem_cons_self))

/-- The signatures with further arguments written out, from none of them to as many as allowed. -/
lemma meetsCustom_signatures {items : List Node} {rest ack : Node}
    (plain : ∀ item ∈ items ++ [rest], item.isFunction = false) (reply : ack.Plain)
    (most : Nat) :
    (∃ count ∈ List.range (most + 2),
        (Node.procedure (items ++ (List.range count).map (fun i => Event.numbered rest (i + 1)) ++
          [.of (.function ack (.of .void))]) none).MeetsCustom definitions direction) ↔
      (∃ item ∈ items ++ [rest], item.MeetsCustom definitions direction) ∨
        ack.MeetsCustom definitions direction.flip := by
  have written (count : Nat) := forall_written (fun _ _ same => same) plain count
  constructor
  · rintro ⟨count, -, meets⟩
    rcases (meetsCustom_signature (written count) reply).mp meets with ⟨item, mem, meets⟩ | meets
    · refine .inl ?_
      rcases List.mem_append.mp mem with mem | mem
      · exact ⟨item, List.mem_append_left _ mem, meets⟩
      · obtain ⟨i, -, rfl⟩ := List.mem_map.mp mem
        exact ⟨rest, List.mem_append_right _ List.mem_cons_self, meetsCustom_described.mp meets⟩
    · exact .inr meets
  · intro meets
    refine ⟨1, by simp, (meetsCustom_signature (written 1) reply).mpr ?_⟩
    rcases meets with ⟨item, mem, meets⟩ | meets
    · refine .inl ?_
      rcases List.mem_append.mp mem with mem | mem
      · exact ⟨item, List.mem_append_left _ mem, meets⟩
      · obtain rfl := List.mem_singleton.mp mem
        exact ⟨_, List.mem_append_right _ List.mem_cons_self, meetsCustom_described.mpr meets⟩
    · exact .inr meets

end Handlers

namespace Event

/-- What the handler of an event shows of the payload: all of it, except that further arguments
before a callback are left out when none of them is written out. -/
def shownPayload (maxOverloads : Nat) (event : Event) : Node :=
  match event.ack, maxOverloads with
  | some _, 0 => event.payload.withoutRest
  | _, _ => event.payload

/-- What the handler of an event shows: the payload, and the acknowledgement, which flows back. -/
def shownCalls (maxOverloads : Nat) (event : Event) : List (Node × Direction) :=
  (event.shownPayload maxOverloads, event.direction) ::
    (event.ack.map (·, event.direction.flip)).toList

variable {definitions : Definitions} {event : Event} {maxOverloads : Nat}

/-- A handler shows a kind that nothing is known about exactly when what it shows of the payload or
the acknowledgement does. -/
lemma meetsCustom_handlerOf (plain : event.payload.Plain)
    (reply : ∀ ack, event.ack = some ack → ack.Plain) :
    (event.handlerOf maxOverloads).MeetsCustom definitions event.direction ↔
      ∃ call ∈ event.shownCalls maxOverloads, call.1.MeetsCustom definitions call.2 := by
  have same : (event.handlerOf maxOverloads).MeetsCustom definitions event.direction ↔
      (handler event.payload event.ack maxOverloads).MeetsCustom definitions event.direction := by
    rw [handlerOf]
    cases event.description with
    | none => rfl
    | some description => exact meetsCustom_described
  rw [same]
  obtain ⟨name, direction, payload, ack, examples, description⟩ := event
  dsimp only at plain reply ⊢
  rcases parts : payload.tupleParts?.getD ([payload], none) with ⟨items, rest⟩
  have whole : payload.MeetsCustom definitions direction ↔ _ := meetsCustom_arguments parts
  have arguments := plain.arguments parts
  cases ack with
  | none =>
    simp only [handler, parts, shownCalls, shownPayload, Option.map_none, Option.toList,
      List.mem_singleton, exists_eq_left]
    exact (meetsCustom_procedure arguments).trans whole.symm
  | some ack =>
    have reply := reply ack rfl
    simp only [handler, parts, shownCalls, shownPayload, Option.map_some, Option.toList_some,
      List.mem_cons, List.not_mem_nil, or_false, exists_eq_or_imp, exists_eq_left]
    have fixed : ∀ item ∈ items, item.isFunction = false :=
      fun item mem => arguments item (List.mem_append_left _ mem)
    have without : payload.withoutRest.MeetsCustom definitions direction ↔ _ :=
      meetsCustom_withoutRest parts
    cases rest with
    | none =>
      rw [Option.toList_none, List.append_nil] at whole
      refine (meetsCustom_signature fixed reply).trans (or_congr_left ?_)
      cases maxOverloads with
      | zero => exact without.symm
      | succ most => exact whole.symm
    | some rest =>
      cases maxOverloads with
      | zero =>
        dsimp only
        rw [List.range_zero, List.map_nil, List.append_nil]
        exact (meetsCustom_signature fixed reply).trans (or_congr_left without.symm)
      | succ most =>
        refine meetsCustom_union.trans (Iff.trans ?_ (or_congr_left whole.symm))
        refine Iff.trans ?_ (meetsCustom_signatures arguments reply most)
        simp only [List.mem_map, exists_exists_and_eq_and]

end Event

end EventContracts
