import EventContracts.Proofs.OrderedFields
import EventContracts.Proofs.PresentValues
import EventContracts.Proofs.SchemaFits
import Mathlib.Data.List.Forall2

/-! What validation gives for the kinds without children fits the schema objects that these kinds
have, whatever was coerced on the way; and what it gives for the items, the fields and the entries
of a value is what it gives for these parts. -/

namespace EventContracts

open SchemaObject

variable {components : Fields SchemaObject} {input : Option Json} {v w : Json}

lemma checkLength_ok {what : String} {length : Nat} {least most : Option Nat}
    (h : checkLength what length least most = .ok ()) :
    (∀ n, least = some n → n ≤ length) ∧ ∀ n, most = some n → length ≤ n := by
  simp only [checkLength] at h
  cases least <;> cases most <;> dsimp only at h
  case none.none => exact ⟨nofun, nofun⟩
  case none.some most =>
    split at h
    · cases h
    · exact ⟨nofun, fun n eq => by obtain rfl := Option.some.inj eq; omega⟩
  case some.none least =>
    split at h
    · cases h
    · exact ⟨fun n eq => by obtain rfl := Option.some.inj eq; omega, nofun⟩
  case some.some least most =>
    split at h
    · cases h
    · split at h
      · cases h
      · exact ⟨fun n eq => by obtain rfl := Option.some.inj eq; omega,
          fun n eq => by obtain rfl := Option.some.inj eq; omega⟩

lemma StringChecks.validate_ok {patterns : PatternReader} {checks : StringChecks}
    (h : checks.validate patterns input = .ok w) :
    ∃ text, w = .string text ∧ checks.subject input = .ok text ∧
      checkLength "string" text.length checks.minLength checks.maxLength = .ok () := by
  rw [validate] at h
  obtain ⟨text, subject, h⟩ := exists_of_bind h
  obtain ⟨⟨⟩, bounds, h⟩ := exists_of_bind h
  refine ⟨text, ?_, subject, bounds⟩
  dsimp only at h
  repeat' split at h
  all_goals first | exact (Except.ok.inj h).symm | cases h

lemma StringChecks.validate_fits {patterns : PatternReader} {checks : StringChecks}
    (h : checks.validate patterns input = .ok w) :
    Fits components checks.toSchema w := by
  obtain ⟨text, rfl, -, bounds⟩ := validate_ok h
  obtain ⟨least, most⟩ := checkLength_ok bounds
  refine Meets.fits { any_meets with
    type := hasType_one rfl
    minLength := fun n other eq same => ?_
    maxLength := fun n other eq same => ?_ } rfl rfl rfl rfl
  · obtain rfl := Json.string.inj same
    exact least n eq
  · obtain rfl := Json.string.inj same
    exact most n eq

lemma NumberChecks.validate_ok {checks : NumberChecks} (h : checks.validate input = .ok w) :
    ∃ d : Double, w = .number (.ofDouble d) ∧ (checks.whole → d.isWhole) := by
  rw [validate] at h
  obtain ⟨d, -, h⟩ := exists_of_bind h
  dsimp only at h
  refine ⟨d, ?_, fun whole => ?_⟩
  · repeat' split at h
    all_goals first | exact (Except.ok.inj h).symm | cases h
  · split at h
    · cases h
    · rename_i passes
      simpa [whole] using passes

lemma Number.isIntegral_ofDouble {d : Double} (whole : d.isWhole) : (ofDouble d).isIntegral := by
  rw [ofDouble]
  split
  · split
    · rfl
    · exact whole
  · exact whole

lemma NumberChecks.fits {checks : NumberChecks} {n : Number}
    (whole : checks.whole → n.isIntegral) : Fits components checks.toSchema (.number n) := by
  refine Meets.fits { any_meets with type := hasType_one ?_ } rfl rfl rfl rfl
  by_cases isWhole : checks.whole
  · simp [isWhole, Json.hasType, whole isWhole]
  · simp [isWhole, Json.hasType]

lemma NumberChecks.validate_fits {checks : NumberChecks} (h : checks.validate input = .ok w) :
    Fits components checks.toSchema w := by
  obtain ⟨d, rfl, whole⟩ := validate_ok h
  exact NumberChecks.fits fun isWhole => Number.isIntegral_ofDouble (whole isWhole)

lemma validateBigint_ok {coerce : Bool} (h : validateBigint coerce input = .ok w) :
    ∃ n, w = .whole n := by
  simp only [validateBigint] at h
  repeat' split at h
  all_goals first | exact ⟨_, (Except.ok.inj h).symm⟩ | cases h

lemma validateBigint_fits {coerce : Bool} (h : validateBigint coerce input = .ok w) :
    Fits components { ofType "integer" with format := some "bigint" } w := by
  obtain ⟨n, rfl⟩ := validateBigint_ok h
  exact ofType_fits rfl

lemma validateBoolean_ok {coerce : Bool} (h : validateBoolean coerce input = .ok w) :
    ∃ b, w = .bool b := by
  simp only [validateBoolean] at h
  repeat' split at h
  all_goals first | exact ⟨_, (Except.ok.inj h).symm⟩ | cases h

lemma validateBoolean_fits {coerce : Bool} (h : validateBoolean coerce input = .ok w) :
    Fits components (ofType "boolean") w := by
  obtain ⟨b, rfl⟩ := validateBoolean_ok h
  exact ofType_fits rfl

lemma validateDate_ok {coerce : Bool} (h : validateDate coerce input = .ok w) :
    ∃ text, w = .string text := by
  unfold validateDate at h
  dsimp only at h
  split at h
  · exact ⟨_, (Except.ok.inj h).symm⟩
  · cases h

lemma validateDate_fits {coerce : Bool} (h : validateDate coerce input = .ok w) :
    Fits components { ofType "string" with format := some "date-time" } w := by
  obtain ⟨text, rfl⟩ := validateDate_ok h
  exact ofType_fits rfl

lemma Json.hasType_of_same {value : Json} (same : v.same value) : v.hasType value.schemaType := by
  cases v <;> cases value <;> simp only [Json.same, Bool.false_eq_true] at same
  case number.number a b =>
    cases a <;> cases b <;> simp [Number.same] at same <;>
      simp [Json.hasType, Json.schemaType, Number.isWhole, Number.isIntegral]
  all_goals rfl

lemma literal_fits {value : Json} (same : v.same value) :
    Fits components { ofType value.schemaType with choices := some [value] } v := by
  refine Meets.fits { any_meets with
    type := hasType_one (Json.hasType_of_same same)
    choice := fun values eq => ?_ } rfl rfl rfl ?_
  · obtain rfl := Option.some.inj eq
    exact ⟨value, List.mem_singleton_self _, same⟩
  · cases v <;> rfl

lemma choice_fits {values : List String} {text : String} (mem : text ∈ values) :
    Fits components { ofType "string" with choices := some (values.map .string) }
      (.string text) := by
  refine Meets.fits { any_meets with
    type := hasType_one rfl
    choice := fun listed eq => ?_ } rfl rfl rfl rfl
  obtain rfl := Option.some.inj eq
  exact ⟨.string text, List.mem_map_of_mem mem, by simp [Json.same]⟩

namespace Node

variable {patterns : PatternReader} {deref : String → Option Json → Outcome}

/-- What is made of the items of a list: an item is there, since the value that it comes from is. -/
lemma collectItems_ok {item : Node} {position : Nat} {values items : List Json}
    (present : ∀ v, validateWith patterns deref item (some v) ≠ .ok none)
    (h : collectItems (fun v => validateWith patterns deref item (some v)) position values =
      .ok items) :
    items.length = values.length ∧
      ∀ made ∈ items, ∃ v, validateWith patterns deref item (some v) = .ok (some made) :=
  have made := madeOf_collectItems present h
  ⟨made.1, made.each⟩

lemma validateItems_ok (present : ∀ target v, deref target (some v) ≠ .ok none)
    {nodes : List Node} {position : Nat} {values items : List Json}
    (enough : nodes.length ≤ values.length)
    (h : validateItems patterns deref nodes position values = .ok items) :
    List.Forall₂ (fun node item => ∃ v, validateWith patterns deref node (some v) = .ok (some item))
      nodes items := by
  induction nodes generalizing position values items with
  | nil =>
    obtain rfl := Except.ok.inj h
    exact .nil
  | cons node nodes ih =>
    cases values with
    | nil => cases enough
    | cons v values =>
      obtain ⟨result, first, h⟩ := exists_of_bind h
      obtain ⟨more, rest, h⟩ := exists_of_bind h
      obtain rfl := Except.ok.inj h
      have made := ok_of_under first
      cases result with
      | none => exact absurd made (validateWith_present present node v)
      | some w => exact .cons ⟨v, made⟩ (ih (Nat.le_of_succ_le_succ enough) rest)

/-- What is made of an object: every field comes from the shape, and a field of the shape is left
out only when nothing was made of it. -/
lemma validateShape_ok {shape : List (String × Node)} {fields found : Fields Json}
    (h : validateShape patterns deref shape fields = .ok found) :
    (∀ field ∈ found, ∃ node, (field.1, node) ∈ shape ∧
      validateWith patterns deref node (Fields.get? field.1 fields) = .ok (some field.2)) ∧
    ∀ part ∈ shape, part.1 ∉ Fields.names found →
      validateWith patterns deref part.2 (Fields.get? part.1 fields) = .ok none := by
  induction shape generalizing found with
  | nil =>
    obtain rfl := Except.ok.inj h
    exact ⟨nofun, nofun⟩
  | cons part shape ih =>
    obtain ⟨key, node⟩ := part
    obtain ⟨result, first, h⟩ := exists_of_bind h
    obtain ⟨more, rest, h⟩ := exists_of_bind h
    have made := ok_of_under first
    obtain ⟨from_shape, left_out⟩ := ih rest
    have kept : ∀ field ∈ more, ∃ n, (field.1, n) ∈ (key, node) :: shape ∧
        validateWith patterns deref n (Fields.get? field.1 fields) = .ok (some field.2) := by
      intro field mem
      obtain ⟨n, inside, eq⟩ := from_shape field mem
      exact ⟨n, List.mem_cons_of_mem _ inside, eq⟩
    cases result with
    | none =>
      obtain rfl := Except.ok.inj h
      refine ⟨kept, ?_⟩
      intro other mem absent
      rcases List.mem_cons.mp mem with rfl | mem
      · exact made
      · exact left_out other mem absent
    | some w =>
      obtain rfl := Except.ok.inj h
      constructor
      · intro field mem
        rcases List.mem_cons.mp mem with rfl | mem
        · exact ⟨node, List.mem_cons_self, made⟩
        · exact kept field mem
      · intro other mem absent
        rcases List.mem_cons.mp mem with rfl | mem
        · exact absurd List.mem_cons_self absent
        · exact left_out other mem fun inside => absent (List.mem_cons_of_mem _ inside)

/-- What one of several schemas makes of a value. -/
lemma validateFirst_ok {nodes : List Node} {result : Option Json}
    (h : validateFirst patterns deref nodes input = .ok result) :
    ∃ node ∈ nodes, validateWith patterns deref node input = .ok result := by
  induction nodes with
  | nil => cases h
  | cons node nodes ih =>
    rw [validateFirst] at h
    split at h
    · obtain ⟨other, mem, made⟩ := ih h
      exact ⟨other, List.mem_cons_of_mem _ mem, made⟩
    · exact ⟨node, List.mem_cons_self, h⟩

end Node

/-- What is made of a record: every value in it comes from the schema of values. -/
lemma recordEntries_ok {key value : Option Json → Outcome} {entries found result : Fields Json}
    (h : entries.foldlM (recordEntry key value) found = .ok result) :
    ∀ field ∈ result, field ∈ found ∨ ∃ v, value (some v) = .ok (some field.2) := by
  induction entries generalizing found with
  | nil =>
    obtain rfl := Except.ok.inj h
    exact fun field mem => .inl mem
  | cons entry entries ih =>
    rw [List.foldlM_cons] at h
    obtain ⟨next, first, rest⟩ := exists_of_bind h
    intro field mem
    rcases ih rest field mem with mem | made
    · unfold recordEntry at first
      obtain ⟨parsedKey, -, first⟩ := exists_of_bind first
      obtain ⟨made, eq, first⟩ := exists_of_bind first
      cases made with
      | none =>
        obtain rfl := Except.ok.inj first
        exact .inl mem
      | some w =>
        obtain rfl := Except.ok.inj first
        rcases Fields.mem_of_mem_set mem with rfl | mem
        · exact .inr ⟨entry.2, ok_of_under eq⟩
        · exact .inl mem
    · exact .inr made

namespace Node

variable {patterns : PatternReader} {deref : String → Option Json → Outcome} {notes : Notes}

lemma validateWith_literal_ok {value : Json}
    (h : validateWith patterns deref (.mk (.literal value) notes) input = .ok (some w)) :
    w.same value := by
  cases makes_of_validateWith h with
  | literal same => exact same

lemma validateWith_choice_ok {values : List String}
    (h : validateWith patterns deref (.mk (.choice values) notes) input = .ok (some w)) :
    ∃ text ∈ values, w = .string text := by
  cases makes_of_validateWith h with
  | choice listed => exact ⟨_, listed, rfl⟩

lemma validateWith_array_ok (present : ∀ target v, deref target (some v) ≠ .ok none) {item : Node}
    {least most : Option Nat}
    (h : validateWith patterns deref (.mk (.array item least most) notes) input = .ok (some w)) :
    ∃ items, w = .array items ∧ (∀ n, least = some n → n ≤ items.length) ∧
      (∀ n, most = some n → items.length ≤ n) ∧
      ∀ made ∈ items, ∃ v, validateWith patterns deref item (some v) = .ok (some made) := by
  cases makes_of_validateWith h with
  | array counted each =>
    obtain ⟨count, each⟩ := collectItems_ok (fun v => validateWith_present present _ v) each
    rw [← count] at counted
    exact ⟨_, rfl, (checkLength_ok counted).1, (checkLength_ok counted).2, each⟩

/-- What is made of a tuple: the items by position, and then those of the rest. -/
lemma validateWith_tuple_ok (present : ∀ target v, deref target (some v) ≠ .ok none)
    {nodes : List Node} {rest : Option Node}
    (h : validateWith patterns deref (.mk (.tuple nodes rest) notes) input = .ok (some w)) :
    ∃ first more, w = .array (first ++ more) ∧
      List.Forall₂ (fun node made =>
        ∃ v, validateWith patterns deref node (some v) = .ok (some made))
        nodes first ∧
      (rest = none → more = []) ∧
      ∀ node, rest = some node → ∀ made ∈ more, ∃ v,
        validateWith patterns deref node (some v) = .ok (some made) := by
  cases makes_of_validateWith h with
  | tuple count each =>
    have positions := validateItems_ok present (Nat.le_of_eq count) each
    exact ⟨_, [], by rw [List.append_nil], positions, fun _ => rfl, nofun⟩
  | longTuple enough each further =>
    obtain ⟨-, further⟩ := collectItems_ok (fun v => validateWith_present present _ v) further
    refine ⟨_, _, rfl, validateItems_ok present enough each, nofun, ?_⟩
    intro node eq
    obtain rfl := Option.some.inj eq
    exact further

lemma validateWith_object_ok {shape : List (String × Node)} {result : Option Json}
    (h : validateWith patterns deref (.mk (.object shape) notes) input = .ok result) :
    ∃ fields found, input = some (.object fields) ∧ result = some (.object found) ∧
      validateShape patterns deref shape fields = .ok found := by
  cases makes_of_validateWith h with
  | object shaped => exact ⟨_, _, rfl, rfl, shaped⟩

lemma validateWith_record_ok {key value : Node}
    (h : validateWith patterns deref (.mk (.record key value) notes) input = .ok (some w)) :
    ∃ found, w = .object found ∧
      ∀ field ∈ found, ∃ v, validateWith patterns deref value (some v) = .ok (some field.2) := by
  cases makes_of_validateWith h with
  | @record _ _ _ found entries =>
    refine ⟨found, rfl, ?_⟩
    intro field mem
    rcases recordEntries_ok entries field mem with nowhere | made
    · cases nowhere
    · exact made

end Node

end EventContracts
