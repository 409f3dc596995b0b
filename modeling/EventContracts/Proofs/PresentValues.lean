import EventContracts.Proofs.ValidationDepth

/-! A value that is there is never lost in a validation: what a schema makes of it is there. So the
null for items of which nothing is made is not used, lists keep their length, and an object keeps
the declared fields that it had. -/

namespace EventContracts

variable {valid : Node → Option Json → Outcome} {schema : Nat → Option Node}

/-- Whether a list is made of another one item by item, by schemas that go by the position, and
something is made of each item. -/
def MadeOf (valid : Node → Option Json → Outcome) (schema : Nat → Option Node)
    (values items : List Json) : Prop :=
  items.length = values.length ∧ ∀ i v, values[i]? = some v →
    ∃ node w, schema i = some node ∧ items[i]? = some w ∧ valid node (some v) = .ok (some w)

namespace MadeOf

variable {values items : List Json}

lemma nil : MadeOf valid schema [] [] := ⟨rfl, nofun⟩

lemma cons {node : Node} {v w : Json} (first : schema 0 = some node)
    (made : valid node (some v) = .ok (some w))
    (rest : MadeOf valid (fun i => schema (i + 1)) values items) :
    MadeOf valid schema (v :: values) (w :: items) := by
  refine ⟨congrArg (· + 1) rest.1, fun i u at_i => ?_⟩
  cases i with
  | zero =>
    obtain rfl := Option.some.inj at_i
    exact ⟨node, w, first, rfl, made⟩
  | succ i => exact rest.2 i u at_i

/-- Every item of a list that one schema makes is made of a value. -/
lemma each {item : Node} (made : MadeOf valid (fun _ => some item) values items) :
    ∀ w ∈ items, ∃ v, valid item (some v) = .ok (some w) := by
  intro w mem
  obtain ⟨i, bound, rfl⟩ := List.mem_iff_getElem.mp mem
  have within : i < values.length := made.1 ▸ bound
  obtain ⟨node, w, same, there, made⟩ := made.2 i _ (List.getElem?_eq_getElem within)
  obtain rfl := Option.some.inj same
  obtain rfl := Option.some.inj ((List.getElem?_eq_getElem bound).symm.trans there)
  exact ⟨_, made⟩

end MadeOf

/-- Whether what a layer makes of a value keeps the parts of the value: all items of a list, each by
the schema at its position, and all declared fields of an object. -/
def Kind.KeepsParts (valid : Node → Option Json → Outcome) : Kind Node → Json → Json → Prop
  | .array item _ _, v, w => ∃ values items, v = .array values ∧ w = .array items ∧
      MadeOf valid (fun _ => some item) values items
  | .tuple nodes rest, v, w => ∃ values items, v = .array values ∧ w = .array items ∧
      MadeOf valid (fun i => nodes[i]?.or rest) values items
  | .object shape, v, w => ∃ fields found, v = .object fields ∧ w = .object found ∧
      ∀ key node u, Fields.get? key shape = some node → Fields.get? key fields = some u →
        ∃ made, Fields.get? key found = some made ∧ valid node (some u) = .ok (some made)
  | _, _, _ => True

namespace Node

variable {patterns : PatternReader} {deref : String → Option Json → Outcome}

lemma madeOf_collectItems {item : Node} {position : Nat} {values items : List Json}
    (present : ∀ v, validateWith patterns deref item (some v) ≠ .ok none)
    (h : collectItems (fun v => validateWith patterns deref item (some v)) position values =
      .ok items) :
    MadeOf (validateWith patterns deref) (fun _ => some item) values items := by
  induction values generalizing position items with
  | nil =>
    obtain rfl := Except.ok.inj h
    exact .nil
  | cons v values ih =>
    obtain ⟨result, first, h⟩ := exists_of_bind h
    obtain ⟨more, rest, h⟩ := exists_of_bind h
    obtain rfl := Except.ok.inj h
    cases result with
    | none => exact absurd (ok_of_under first) (present v)
    | some w => exact .cons rfl (ok_of_under first) (ih rest)

/-- The items of a tuple by position, and then those that the rest takes. -/
lemma madeOf_validateItems {nodes : List Node} {rest : Option Node} {position : Nat}
    {values first more : List Json}
    (present : ∀ node v, validateWith patterns deref node (some v) ≠ .ok none)
    (enough : nodes.length ≤ values.length)
    (h : validateItems patterns deref nodes position values = .ok first)
    (further :
      MadeOf (validateWith patterns deref) (fun _ => rest) (values.drop nodes.length) more) :
    MadeOf (validateWith patterns deref) (fun i => nodes[i]?.or rest) values (first ++ more) := by
  induction nodes generalizing position values first with
  | nil =>
    obtain rfl := Except.ok.inj h
    exact further
  | cons node nodes ih =>
    cases values with
    | nil => cases enough
    | cons v values =>
      obtain ⟨result, here, h⟩ := exists_of_bind h
      obtain ⟨others, later, h⟩ := exists_of_bind h
      obtain rfl := Except.ok.inj h
      cases result with
      | none => exact absurd (ok_of_under here) (present node v)
      | some w =>
        exact .cons rfl (ok_of_under here) (ih (Nat.le_of_succ_le_succ enough) later further)

lemma kept_validateShape {shape : List (String × Node)} {fields found : Fields Json}
    (present : ∀ node v, validateWith patterns deref node (some v) ≠ .ok none)
    (h : validateShape patterns deref shape fields = .ok found) {key : String} {node : Node}
    {u : Json}
    (declared : Fields.get? key shape = some node) (given : Fields.get? key fields = some u) :
    ∃ made, Fields.get? key found = some made ∧
      validateWith patterns deref node (some u) = .ok (some made) := by
  induction shape generalizing found with
  | nil => cases declared
  | cons part shape ih =>
    obtain ⟨name, child⟩ := part
    obtain ⟨result, first, h⟩ := exists_of_bind h
    obtain ⟨more, rest, h⟩ := exists_of_bind h
    have made := ok_of_under first
    rw [Fields.get?] at declared
    by_cases same : name = key
    · subst same
      rw [if_pos rfl] at declared
      obtain rfl := Option.some.inj declared
      rw [given] at made
      cases result with
      | none => exact absurd made (present child u)
      | some w =>
        obtain rfl := Except.ok.inj h
        exact ⟨w, by rw [Fields.get?, if_pos rfl], made⟩
    · rw [if_neg same] at declared
      obtain ⟨w, kept, valid⟩ := ih rest declared
      cases result with
      | none =>
        obtain rfl := Except.ok.inj h
        exact ⟨w, kept, valid⟩
      | some other =>
        obtain rfl := Except.ok.inj h
        exact ⟨w, by rw [Fields.get?, if_neg same, kept], valid⟩

/-- One layer keeps the parts of what it makes something of. -/
lemma keepsParts_validateWith
    (present : ∀ node v, validateWith patterns deref node (some v) ≠ .ok none)
    {kind : Kind Node} {notes : Notes} {v w : Json}
    (h : validateWith patterns deref (.mk kind notes) (some v) = .ok (some w)) :
    kind.KeepsParts (validateWith patterns deref) v w := by
  cases makes_of_validateWith h with
  | array _ collected => exact ⟨_, _, rfl, rfl, madeOf_collectItems (present _) collected⟩
  | @tuple nodes values items count each =>
    have all : values.drop nodes.length = [] := List.drop_eq_nil_of_le (Nat.le_of_eq count.symm)
    have made :
        MadeOf (validateWith patterns deref) (fun i => nodes[i]?.or none) values (items ++ []) := by
      refine madeOf_validateItems present (Nat.le_of_eq count) each ?_
      rw [all]
      exact .nil
    rw [List.append_nil] at made
    exact ⟨values, items, rfl, rfl, made⟩
  | longTuple enough items collected =>
    exact ⟨_, _, rfl, rfl, madeOf_validateItems present enough items
      (madeOf_collectItems (present _) collected)⟩
  | object made =>
    exact ⟨_, _, rfl, rfl,
      fun key node u declared given => kept_validateShape present made declared given⟩
  | _ => trivial

/-- A value that is there stays there. When a validation of it ends with a result, to whatever depth
references are followed, the result is there, and it keeps the items of a list and the declared
fields of an object. -/
theorem present_values_stay_present {definitions : Definitions} {depth : Nat} {node : Node}
    {v : Json} {result : Option Json}
    (valid : validate patterns definitions depth node (some v) = .ok result) :
    ∃ w, result = some w ∧ node.kind.KeepsParts (validate patterns definitions depth) v w := by
  cases result with
  | none => exact absurd valid (validate_present depth node v)
  | some w =>
    obtain ⟨kind, notes⟩ := node
    refine ⟨w, rfl, ?_⟩
    have same : validate patterns definitions depth =
        validateWith patterns (follow patterns definitions depth) :=
      funext fun node => funext fun input => validate_eq patterns definitions depth node input
    rw [same] at valid ⊢
    exact keepsParts_validateWith (validateWith_present (follow_present patterns definitions depth))
      valid

/-- A voyage: stages with any further notes, and a remark that may be missing. -/
def voyage : Node :=
  .of (.object [("stages", .of (.tuple [.of (.string {}), .of (.optional (.of .any))]
    (some (.of (.effect (.of .unknown) (.refine .always)))))),
      ("remark", .of (.optional (.of .any)))])

theorem voyages_keep_their_parts :
    let given : Json :=
      .object [("remark", .null), ("stages", .array [.string "Riga", .null, .null])]
    let kept : Json :=
      .object [("stages", .array [.string "Riga", .null, .null]), ("remark", .null)]
    validate Regex.reader [] 0 voyage (some given) = .ok (some kept) ∧
      voyage.kind.KeepsParts (validate Regex.reader [] 0) given kept := by
  intro given kept
  have valid : validate Regex.reader [] 0 voyage (some given) = .ok (some kept) := by rfl
  obtain ⟨w, made, keeps⟩ := present_values_stay_present valid
  obtain rfl := Option.some.inj made
  exact ⟨valid, keeps⟩

end Node

end EventContracts
