import EventContracts.Proofs.ValidatedLayers

/-! Validation follows references to a depth, and more depth changes no result that did not want for
it. A value that is there does not get lost: whatever a schema makes of it is there as well. -/

namespace EventContracts

section Results

variable {α β γ : Type}

/-- Whether a result is what another one becomes with more depth: the same, unless the depth was
used up. -/
def Deepens (shallow deep : Except Failure α) : Prop :=
  shallow = .error (.interrupted .unfinished) ∨ deep = shallow

namespace Deepens

variable {shallow deep : Except Failure α}

lemma refl (result : Except Failure α) : Deepens result result := .inr rfl

lemma bind (h : Deepens shallow deep) {next next' : α → Except Failure β}
    (rest : ∀ a, Deepens (next a) (next' a)) : Deepens (shallow >>= next) (deep >>= next') := by
  rcases h with rfl | rfl
  · exact .inl rfl
  · cases deep with
    | error cause => exact .inr rfl
    | ok a => exact rest a

lemma under (h : Deepens shallow deep) (segment : String) :
    Deepens (Failure.under segment shallow) (Failure.under segment deep) := by
  rcases h with rfl | rfl
  · exact .inl rfl
  · exact .inr rfl

/-- Something else is tried when a value is refused. -/
lemma orElse {shallow deep other other' : Outcome} (rest : Deepens other other') :
    Deepens shallow deep →
      Deepens (match shallow with | .error (.invalid _) => other | result => result)
        (match deep with | .error (.invalid _) => other' | result => result) := by
  rintro (rfl | rfl)
  · exact .inl rfl
  · match deep with
    | .ok _ => exact .inr rfl
    | .error (.invalid _) => exact rest
    | .error (.interrupted _) => exact .inr rfl

end Deepens

lemma deepens_foldlM {step step' : β → γ → Except Failure β}
    (each : ∀ b c, Deepens (step b c) (step' b c)) (items : List γ) (b : β) :
    Deepens (items.foldlM step b) (items.foldlM step' b) := by
  induction items generalizing b with
  | nil => exact .refl _
  | cons c items ih =>
    rw [List.foldlM_cons, List.foldlM_cons]
    exact (each b c).bind ih

end Results

lemma deepens_collectItems {f f' : Json → Outcome} (each : ∀ v, Deepens (f v) (f' v))
    (position : Nat) (values : List Json) :
    Deepens (collectItems f position values) (collectItems f' position values) := by
  induction values generalizing position with
  | nil => exact .refl _
  | cons v values ih =>
    exact ((each v).under _).bind fun item => (ih _).bind fun items => .refl _

lemma deepens_recordEntry {key key' value value' : Option Json → Outcome}
    (keys : ∀ v, Deepens (key v) (key' v)) (values : ∀ v, Deepens (value v) (value' v))
    (found : Fields Json) (entry : String × Json) :
    Deepens (recordEntry key value found entry) (recordEntry key' value' found entry) :=
  ((keys _).under _).bind fun _ => ((values _).under _).bind fun _ => .refl _

namespace Node

variable {patterns : PatternReader} {deref deref' : String → Option Json → Outcome}

lemma deepens_validateItems {nodes : List Node}
    (each : ∀ node ∈ nodes, ∀ input,
      Deepens (validateWith patterns deref node input) (validateWith patterns deref' node input))
    (position : Nat) (values : List Json) :
    Deepens (validateItems patterns deref nodes position values)
      (validateItems patterns deref' nodes position values) := by
  induction nodes generalizing position values with
  | nil => exact .refl _
  | cons node nodes ih =>
    cases values with
    | nil => exact .refl _
    | cons v values =>
      refine ((each node List.mem_cons_self _).under _).bind ?_
      intro item
      exact (ih (fun n mem => each n (List.mem_cons_of_mem _ mem)) _ _).bind fun items => .refl _

lemma deepens_validateShape {shape : List (String × Node)}
    (each : ∀ node ∈ shape.map Prod.snd, ∀ input,
      Deepens (validateWith patterns deref node input) (validateWith patterns deref' node input))
    (fields : Fields Json) :
    Deepens (validateShape patterns deref shape fields)
      (validateShape patterns deref' shape fields) := by
  induction shape with
  | nil => exact .refl _
  | cons field shape ih =>
    refine ((each field.2 List.mem_cons_self _).under _).bind ?_
    intro result
    exact (ih fun n mem => each n (List.mem_cons_of_mem _ mem)).bind fun found => .refl _

lemma deepens_validateFirst {nodes : List Node}
    (each : ∀ node ∈ nodes, ∀ input,
      Deepens (validateWith patterns deref node input) (validateWith patterns deref' node input))
    (input : Option Json) :
    Deepens (validateFirst patterns deref nodes input)
      (validateFirst patterns deref' nodes input) := by
  induction nodes with
  | nil => exact .refl _
  | cons node nodes ih =>
    exact .orElse (ih fun n mem => each n (List.mem_cons_of_mem _ mem))
      (each node List.mem_cons_self input)

lemma deepens_validateWith
    (deeper : ∀ target input, Deepens (deref target input) (deref' target input))
    (node : Node) (input : Option Json) :
    Deepens (validateWith patterns deref node input) (validateWith patterns deref' node input) := by
  induction node using Node.induct generalizing input with
  | step kind notes ih =>
    unfold validateWith
    cases kind with
    | array item _ _ =>
      dsimp only
      split
      · rename_i values
        exact (Deepens.refl _).bind fun _ => (deepens_collectItems
          (fun v => ih item (by simp [Kind.children]) (some v)) 0 values).bind fun _ => .refl _
      · exact .refl _
    | tuple items rest =>
      dsimp only
      split
      · rename_i values
        split
        · exact .refl _
        · refine (deepens_validateItems (fun node mem => ih node (by simp [Kind.children, mem]))
            0 values).bind fun first => ?_
          cases rest with
          | none => exact .refl _
          | some rest =>
            exact (deepens_collectItems (fun v => ih rest (by simp [Kind.children]) (some v))
              _ _).bind fun _ => .refl _
      · exact .refl _
    | object shape =>
      dsimp only
      split
      · rename_i fields
        exact (deepens_validateShape ih fields).bind fun _ => .refl _
      · exact .refl _
    | record key value =>
      dsimp only
      split
      · rename_i fields
        exact (deepens_foldlM (deepens_recordEntry (ih key (by simp [Kind.children]))
          (ih value (by simp [Kind.children]))) fields []).bind fun _ => .refl _
      · exact .refl _
    | union options | taggedUnion _ options => exact deepens_validateFirst ih input
    | intersection left right =>
      refine (ih left (by simp [Kind.children]) input).bind ?_
      intro a
      exact (ih right (by simp [Kind.children]) input).bind fun b => .refl _
    | optional inner =>
      cases input with
      | none => exact .refl _
      | some v => exact ih inner (by simp [Kind.children]) (some v)
    | nullable inner =>
      dsimp only
      split
      · exact .refl _
      · exact ih inner (by simp [Kind.children]) _
    | default inner value | branded inner _ | readonly inner =>
      exact ih inner (by simp [Kind.children]) _
    | fallback inner value => exact .orElse (.refl _) (ih inner (by simp [Kind.children]) input)
    | effect inner effect =>
      exact (ih inner (by simp [Kind.children]) input).bind fun _ => .refl _
    | preprocess inner transform =>
      exact (Deepens.refl _).bind fun v => ih inner (by simp [Kind.children]) (some v)
    | pipeline first second =>
      refine (ih first (by simp [Kind.children]) input).bind ?_
      intro parsed
      exact ih second (by simp [Kind.children]) parsed
    | reference key target => exact deeper target input
    | string _ | number _ | bigint _ | boolean _ | date _ | null | any | unknown | void
    | literal _ | choice _ | function _ _ | custom _ => exact .refl _

/-- How references are followed to a depth. -/
def follow (patterns : PatternReader) (definitions : Definitions) :
    Nat → String → Option Json → Outcome
  | 0 => fun _ _ => .error (.interrupted .unfinished)
  | depth + 1 => fun target input =>
    validate patterns definitions depth (definitions.resolve target) input

lemma validate_eq (patterns : PatternReader) (definitions : Definitions) (depth : Nat) (node : Node)
    (input : Option Json) :
    validate patterns definitions depth node input =
      validateWith patterns (follow patterns definitions depth) node input := by
  cases depth <;> rfl

variable {definitions : Definitions}

lemma deepens_follow {depth more : Nat} (le : depth ≤ more) (target : String)
    (input : Option Json) :
    Deepens (follow patterns definitions depth target input)
      (follow patterns definitions more target input) := by
  induction depth generalizing more target input with
  | zero => exact .inl rfl
  | succ depth ih =>
    obtain ⟨more, rfl⟩ : ∃ m, more = m + 1 := ⟨more - 1, by omega⟩
    simp only [follow]
    rw [validate_eq, validate_eq]
    exact deepens_validateWith (ih (Nat.le_of_succ_le_succ le)) _ input

variable (definitions) in
/-- More depth changes no result that did not want for it. -/
theorem validate_deepens {depth more : Nat} (le : depth ≤ more) (node : Node)
    (input : Option Json) :
    Deepens (validate patterns definitions depth node input)
      (validate patterns definitions more node input) := by
  rw [validate_eq, validate_eq]
  exact deepens_validateWith (deepens_follow le) node input

/-- Two depths do not disagree. -/
lemma validate_agree {depth other : Nat} {node : Node} {input : Option Json}
    {result result' : Outcome} (h : validate patterns definitions depth node input = result)
    (h' : validate patterns definitions other node input = result')
    (finished : result ≠ .error (.interrupted .unfinished))
    (finished' : result' ≠ .error (.interrupted .unfinished)) : result = result' := by
  rcases Nat.le_total depth other with le | le
  · rcases validate_deepens definitions le node input with unfinished | same
    · exact absurd (h.symm.trans unfinished) finished
    · rw [← h, ← h', same]
  · rcases validate_deepens definitions le node input with unfinished | same
    · exact absurd (h'.symm.trans unfinished) finished'
    · rw [← h, ← h', same]

lemma validateFirst_present {nodes : List Node} {v : Json}
    (each : ∀ node ∈ nodes, validateWith patterns deref node (some v) ≠ .ok none) :
    validateFirst patterns deref nodes (some v) ≠ .ok none := by
  induction nodes with
  | nil => exact nofun
  | cons node nodes ih =>
    rw [validateFirst]
    split
    · exact ih fun n mem => each n (List.mem_cons_of_mem _ mem)
    · exact each node List.mem_cons_self

lemma mergeResults_present (a b : Json) : mergeResults (some a) (some b) ≠ .ok none := by
  simp only [mergeResults]
  split
  · exact nofun
  · split <;> exact nofun
  · rename_i left _
    cases left
  · exact nofun

/-- A value that is there is not lost: what a schema makes of it is there. No rule makes nothing of
it but those that hand on what a part makes. -/
lemma validateWith_present (present : ∀ target v, deref target (some v) ≠ .ok none) (node : Node)
    (v : Json) : validateWith patterns deref node (some v) ≠ .ok none := by
  induction node using Node.induct generalizing v with
  | step kind notes ih =>
    intro lost
    cases makes_of_validateWith lost with
    | union first | taggedUnion first =>
      exact validateFirst_present (fun node mem => ih node mem v) first
    | @intersection _ _ _ a b _ fromLeft fromRight merged =>
      cases a with
      | none => exact ih _ (by simp [Kind.children]) v fromLeft
      | some a =>
        cases b with
        | none => exact ih _ (by simp [Kind.children]) v fromRight
        | some b => exact mergeResults_present a b merged
    | optional made | nullable _ made | default made | fallback made | branded made | readonly made
    | refine made _ | preprocess _ made => exact ih _ (List.mem_singleton_self _) _ made
    | @pipeline _ _ _ parsed _ before made =>
      cases parsed with
      | none => exact ih _ (by simp [Kind.children]) v before
      | some w => exact ih _ (by simp [Kind.children]) w made
    | reference made => exact present _ v made

variable (patterns definitions) in
lemma follow_present (depth : Nat) (target : String) (v : Json) :
    follow patterns definitions depth target (some v) ≠ .ok none := by
  induction depth generalizing target v with
  | zero => exact nofun
  | succ depth ih =>
    simp only [follow]
    rw [validate_eq]
    exact validateWith_present ih _ v

/-- What a schema makes of a value that is there is there, at every depth. -/
theorem validate_present (depth : Nat) (node : Node) (v : Json) :
    validate patterns definitions depth node (some v) ≠ .ok none := by
  rw [validate_eq]
  exact validateWith_present (follow_present patterns definitions depth) node v

/-- A schema that coerces makes something of an absent value, or refuses it. -/
lemma validateWith_coerces {node : Node} (coerces : node.coerces) :
    validateWith patterns deref node none ≠ .ok none := by
  obtain ⟨kind, notes⟩ := node
  intro lost
  cases kind with
  | string _ | number _ | bigint _ | boolean _ | date _ => cases makes_of_validateWith lost
  | _ => cases coerces

end Node

/-- How the references of a library are followed to a depth. -/
abbrev Library.follow (library : Library) : Nat → String → Option Json → Outcome :=
  Node.follow library.patterns library.definitions

end EventContracts
