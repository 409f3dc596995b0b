import EventContracts.Proofs.SpecConversion

/-! Validations that are not interrupted. Only one transform crashes, and no manifest can name it,
so what a conversion makes never does: a validation gives a value, refuses, or follows references
without end. Where there is nothing to refer to, it always ends. -/

namespace EventContracts

/-- Whether a result is not an interruption for a cause. -/
def Unbroken {α : Type} (cause : Interruption) (result : Except Failure α) : Prop :=
  result ≠ .error (.interrupted cause)

namespace Unbroken

variable {α β γ : Type} {cause : Interruption}

lemma ok (a : α) : Unbroken cause (.ok a) := nofun

lemma refuse (issue : Issue.Cause) : Unbroken cause (Failure.refuse issue : Except Failure α) :=
  nofun

lemma bind {first : Except Failure α} {next : α → Except Failure β} (h : Unbroken cause first)
    (rest : ∀ a, Unbroken cause (next a)) : Unbroken cause (first >>= next) := by
  cases first with
  | ok a => exact rest a
  | error failure =>
    intro crashed
    exact h (congrArg Except.error (Except.error.inj crashed))

lemma map {first : Except Failure α} (f : α → β) (h : Unbroken cause first) :
    Unbroken cause (first.map f) := by
  cases first with
  | ok a => exact .ok _
  | error failure =>
    intro crashed
    exact h (congrArg Except.error (Except.error.inj crashed))

lemma under {result : Except Failure α} (segment : String) (h : Unbroken cause result) :
    Unbroken cause (Failure.under segment result) := by
  match result with
  | .ok _ => exact .ok _
  | .error (.invalid _) => exact nofun
  | .error (.interrupted _) => exact h

lemma orElse {result other : Outcome} (h : Unbroken cause result) (rest : Unbroken cause other) :
    Unbroken cause (match result with | .error (.invalid _) => other | result => result) := by
  match result with
  | .ok _ => exact .ok _
  | .error (.invalid _) => exact rest
  | .error (.interrupted _) => exact h

lemma ite {condition : Prop} [Decidable condition] {yes no : Except Failure α}
    (left : Unbroken cause yes) (right : Unbroken cause no) :
    Unbroken cause (if condition then yes else no) := by
  split
  · exact left
  · exact right

lemma foldlM {step : β → γ → Except Failure β} (each : ∀ b c, Unbroken cause (step b c))
    (items : List γ) (b : β) : Unbroken cause (items.foldlM step b) := by
  induction items generalizing b with
  | nil => exact .ok _
  | cons c items ih =>
    rw [List.foldlM_cons]
    exact (each b c).bind ih

end Unbroken

section Values

variable {cause : Interruption}

lemma unbroken_checkLength (what : String) (length : Nat) (least most : Option Nat) :
    Unbroken cause (checkLength what length least most) := by
  unfold checkLength
  cases least <;> cases most <;> dsimp only <;> repeat' split
  all_goals first | exact .ok _ | exact .refuse _

lemma unbroken_string (patterns : PatternReader) (checks : StringChecks) (input : Option Json) :
    Unbroken cause (checks.validate patterns input) := by
  have subject : Unbroken cause (checks.subject input) := by
    unfold StringChecks.subject
    repeat' split
    all_goals first | exact .ok _ | exact .refuse _
  refine subject.bind fun text => (unbroken_checkLength _ _ _ _).bind fun _ => ?_
  repeat' split
  all_goals first | exact .ok _ | exact .refuse _

lemma unbroken_number (checks : NumberChecks) (input : Option Json) :
    Unbroken cause (checks.validate input) := by
  have subject : Unbroken cause (checks.subject input) := by
    unfold NumberChecks.subject
    refine Unbroken.bind ?_ fun number => ?_
    · repeat' split
      all_goals first | exact .ok _ | exact .refuse _
    · split
      · exact .ok _
      · exact .refuse _
  refine subject.bind fun d => ?_
  repeat' split
  all_goals first | exact .ok _ | exact .refuse _

lemma unbroken_bigint (coerce : Bool) (input : Option Json) :
    Unbroken cause (validateBigint coerce input) := by
  unfold validateBigint
  repeat' split
  all_goals first | exact .ok _ | exact .refuse _

lemma unbroken_boolean (coerce : Bool) (input : Option Json) :
    Unbroken cause (validateBoolean coerce input) := by
  unfold validateBoolean
  repeat' split
  all_goals first | exact .ok _ | exact .refuse _

lemma unbroken_date (coerce : Bool) (input : Option Json) :
    Unbroken cause (validateDate coerce input) := by
  unfold validateDate
  extract_lets instant?
  clear_value instant?
  split
  · exact .ok _
  · exact .refuse (.expected "date" input)

/-- A transform that manifests can name does not crash. -/
lemma run_ne_crashed {t : Transform} (known : t ∈ Transform.builtins) (v : Json) :
    t.run v ≠ .crashed := by
  simp only [Transform.builtins, List.mem_cons, List.not_mem_nil, or_false] at known
  rcases known with rfl | rfl | rfl | rfl | rfl
  · cases v <;> exact nofun
  · cases v <;> exact nofun
  · cases v <;> exact nofun
  · cases v with
    | string s =>
      simp only [Transform.parseNumber]
      split <;> exact nofun
    | _ => exact nofun
  · cases v <;> exact nofun

lemma unbroken_apply {t : Transform} {v : Json} (calm : t.run v ≠ .crashed) :
    Unbroken cause (t.apply v) := by
  unfold Transform.apply
  split
  · exact .ok _
  · exact .refuse _
  · rename_i crashed
    exact absurd crashed calm

lemma unbroken_collectItems {f : Json → Outcome} (each : ∀ v, Unbroken cause (f v)) (position : Nat)
    (values : List Json) : Unbroken cause (collectItems f position values) := by
  induction values generalizing position with
  | nil => exact .ok _
  | cons v values ih =>
    exact ((each v).under _).bind fun item => (ih _).bind fun items => .ok _

lemma unbroken_recordEntry {key value : Option Json → Outcome} (keys : ∀ v, Unbroken cause (key v))
    (values : ∀ v, Unbroken cause (value v)) (found : Fields Json) (entry : String × Json) :
    Unbroken cause (recordEntry key value found entry) := by
  refine ((keys _).under _).bind fun parsed => ((values _).under _).bind fun result => ?_
  split <;> exact .ok _

lemma unbroken_mergeResults (a b : Option Json) : Unbroken cause (mergeResults a b) := by
  unfold mergeResults
  repeat' split
  all_goals first | exact .ok _ | exact .refuse _

end Values

namespace Node

variable {patterns : PatternReader} {deref : String → Option Json → Outcome} {defined : List String}
  {good : Json → Prop}
  {cause : Interruption}

lemma unbroken_validateItems {nodes : List Node}
    (each : ∀ node ∈ nodes, ∀ input, Unbroken cause (validateWith patterns deref node input))
    (position : Nat) (values : List Json) :
    Unbroken cause (validateItems patterns deref nodes position values) := by
  induction nodes generalizing position values with
  | nil => exact .ok _
  | cons node nodes ih =>
    cases values with
    | nil => exact .ok _
    | cons v values =>
      refine ((each node List.mem_cons_self _).under _).bind fun item => ?_
      exact (ih (fun n mem => each n (List.mem_cons_of_mem _ mem)) _ _).bind fun items => .ok _

lemma unbroken_validateShape {shape : List (String × Node)}
    (each : ∀ node ∈ shape.map Prod.snd, ∀ input,
      Unbroken cause (validateWith patterns deref node input))
    (fields : Fields Json) : Unbroken cause (validateShape patterns deref shape fields) := by
  induction shape with
  | nil => exact .ok _
  | cons field shape ih =>
    refine ((each field.2 List.mem_cons_self _).under _).bind fun result => ?_
    refine (ih fun n mem => each n (List.mem_cons_of_mem _ mem)).bind fun found => ?_
    exact .ok _

lemma unbroken_validateFirst {nodes : List Node}
    (each : ∀ node ∈ nodes, ∀ input, Unbroken cause (validateWith patterns deref node input))
    (input : Option Json) : Unbroken cause (validateFirst patterns deref nodes input) := by
  induction nodes with
  | nil => exact .refuse _
  | cons node nodes ih =>
    exact (each node List.mem_cons_self input).orElse
      (ih fun n mem => each n (List.mem_cons_of_mem _ mem))

/-- A tree that conversion can make is not interrupted, unless a schema that it refers to is. -/
lemma unbroken_validateWith
    (follows : ∀ target ∈ defined, ∀ input, Unbroken cause (deref target input)) {node : Node}
    (converted : node.Converted defined good) (input : Option Json) :
    Unbroken cause (validateWith patterns deref node input) := by
  induction node using Node.induct generalizing input with
  | step kind notes ih =>
    obtain ⟨layer, -, children⟩ := converted
    replace ih := fun child mem input => ih child mem (children child mem) input
    unfold validateWith
    cases kind with
    | string checks => exact (unbroken_string patterns checks input).map some
    | number checks => exact (unbroken_number checks input).map some
    | bigint coerce => exact (unbroken_bigint coerce input).map some
    | boolean coerce => exact (unbroken_boolean coerce input).map some
    | date coerce => exact (unbroken_date coerce input).map some
    | any | unknown => exact .ok _
    | function _ _ | custom _ => exact .refuse _
    | null | void =>
      dsimp only
      split
      · exact .ok _
      · exact .refuse _
    | literal value =>
      dsimp only
      split
      · exact .ite (.ok _) (.refuse _)
      · exact .refuse _
    | choice values =>
      dsimp only
      split
      · exact .ite (.ok _) (.refuse _)
      · exact .refuse _
    | array item minItems maxItems =>
      dsimp only
      split
      · exact (unbroken_checkLength _ _ _ _).bind fun _ => (unbroken_collectItems
          (fun v => ih item (by simp [Kind.children]) (some v)) _ _).bind fun items => .ok _
      · exact .refuse _
    | tuple items rest =>
      dsimp only
      split
      · refine .ite (.refuse _) ?_
        refine (unbroken_validateItems
          (fun node mem => ih node (by simp [Kind.children, mem])) _ _).bind fun first => ?_
        cases rest with
        | none => exact .ok _
        | some rest =>
          exact (unbroken_collectItems (fun v => ih rest (by simp [Kind.children]) (some v))
            _ _).bind fun more => .ok _
      · exact .refuse _
    | object shape =>
      dsimp only
      split
      · exact (unbroken_validateShape ih _).bind fun found => .ok _
      · exact .refuse _
    | record key value =>
      dsimp only
      split
      · exact (Unbroken.foldlM (unbroken_recordEntry (ih key (by simp [Kind.children]))
          (ih value (by simp [Kind.children]))) _ _).bind fun found => .ok _
      · exact .refuse _
    | union options | taggedUnion _ options => exact unbroken_validateFirst ih input
    | intersection left right =>
      refine (ih left (by simp [Kind.children]) input).bind fun a => ?_
      exact (ih right (by simp [Kind.children]) input).bind fun b => unbroken_mergeResults a b
    | optional inner =>
      cases input with
      | none => exact .ok _
      | some v => exact ih inner (by simp [Kind.children]) (some v)
    | nullable inner =>
      dsimp only
      split
      · exact .ok _
      · exact ih inner (by simp [Kind.children]) _
    | default inner _ | branded inner _ | readonly inner =>
      exact ih inner (by simp [Kind.children]) _
    | fallback inner value => exact (ih inner (by simp [Kind.children]) input).orElse (.ok _)
    | effect inner effect =>
      refine (ih inner (by simp [Kind.children]) input).bind fun parsed => ?_
      cases effect with
      | transform t => exact (unbroken_apply (run_ne_crashed layer _)).map some
      | refine r => exact absurd layer id
    | preprocess inner transform =>
      exact (unbroken_apply (run_ne_crashed layer _)).bind fun v =>
        ih inner (by simp [Kind.children]) (some v)
    | pipeline first second =>
      refine (ih first (by simp [Kind.children]) input).bind fun parsed => ?_
      exact ih second (by simp [Kind.children]) parsed
    | reference key target => exact follows target layer.2 input

variable {definitions : Definitions}

lemma unbroken_follow
    (resolved : ∀ target ∈ defined, (definitions.resolve target).Converted defined good)
    (depth : Nat) {target : String} (mem : target ∈ defined) (input : Option Json) :
    Unbroken .crash (follow patterns definitions depth target input) := by
  induction depth generalizing target input with
  | zero => exact nofun
  | succ depth ih =>
    simp only [follow]
    rw [validate_eq]
    exact unbroken_validateWith (fun other mem => ih mem) (resolved target mem) input

/-- With converted definitions, a validation of a converted tree does not crash. -/
lemma unbroken_validate
    (resolved : ∀ target ∈ defined, (definitions.resolve target).Converted defined good)
    {node : Node} (converted : node.Converted defined good) (depth : Nat) (input : Option Json) :
    Unbroken .crash (validate patterns definitions depth node input) := by
  rw [validate_eq]
  exact unbroken_validateWith (fun other mem => unbroken_follow resolved depth mem) converted input

/-- Where no name is defined, a validation of a converted tree is not interrupted. -/
lemma unbroken_of_no_definitions {node : Node} (converted : node.Converted [] good) (depth : Nat)
    (input : Option Json) : Unbroken cause (validate patterns definitions depth node input) := by
  rw [validate_eq]
  exact unbroken_validateWith (fun _ mem => absurd mem List.not_mem_nil) converted input

end Node

end EventContracts
