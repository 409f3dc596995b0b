import EventContracts.Proofs.CanonicalForms
import EventContracts.Proofs.JsonTexts

/-! Canonical forms are written with regular numbers, when those in the specs are regular: a whole
number is rounded to a double in the unique form of its format, and a description takes its other
numbers from the schema. -/

namespace EventContracts

namespace Double

variable {negative : Bool} {num den : Nat} {d : Double}

lemma le_scaled_div (positive : 0 < num) (also : 0 < den) (power : Int) (bound : Nat) :
    bound ≤ (scaleRatio num den power).1 / (scaleRatio num den power).2 ↔
      (bound : ℚ) ≤ num / den * 2 ^ power := by
  have divisor := (scaleRatio_pos positive also power).2
  have divisor' : (0 : ℚ) < (scaleRatio num den power).2 := by exact_mod_cast divisor
  rw [← scaleRatio_eq, Nat.le_div_iff_mul_le divisor, le_div_iff₀ divisor']
  exact_mod_cast Iff.rfl

lemma roundQuotient_bounds (num den : Nat) :
    num / den ≤ roundQuotient num den ∧ roundQuotient num den ≤ num / den + 1 := by
  rw [roundQuotient]
  split <;> omega

/-- The exponent that fits a ratio, before the least one is taken into account. -/
def fittingExponent (num den : Nat) : Int :=
  let guess : Int := (num.log2 : Int) - den.log2 - 53
  if (scaleRatio num den (-guess)).1 / (scaleRatio num den (-guess)).2 ≥ Nat.pow 2 53 then guess + 1
  else guess

/-- The logarithms of two numbers leave two choices for that of their ratio. -/
lemma ratio_bounds (positive : 0 < num) (also : 0 < den) :
    (2 : ℚ) ^ ((num.log2 : Int) - den.log2 - 1) ≤ (num : ℚ) / den ∧
      (num : ℚ) / den < 2 ^ ((num.log2 : Int) - den.log2 + 1) := by
  have divisor : (0 : ℚ) < den := by exact_mod_cast also
  have cast {n : Nat} (positive : 0 < n) :
      (2 : ℚ) ^ (n.log2 : Int) ≤ n ∧ (n : ℚ) < 2 ^ ((n.log2 : Int) + 1) := by
    constructor
    · rw [zpow_natCast]
      exact_mod_cast Nat.log2_self_le positive.ne'
    · exact_mod_cast Nat.lt_log2_self
  obtain ⟨least, most⟩ := cast positive
  obtain ⟨least', most'⟩ := cast also
  have unit : (0 : ℚ) < 2 ^ ((num.log2 : Int) - den.log2 - 1) := by positivity
  have larger : (0 : ℚ) < 2 ^ ((num.log2 : Int) - den.log2 + 1) := by positivity
  rw [le_div_iff₀ divisor, div_lt_iff₀ divisor]
  constructor
  · calc (2 : ℚ) ^ ((num.log2 : Int) - den.log2 - 1) * den
        ≤ 2 ^ ((num.log2 : Int) - den.log2 - 1) * 2 ^ ((den.log2 : Int) + 1) :=
          mul_le_mul_of_nonneg_left most'.le unit.le
      _ = 2 ^ (num.log2 : Int) := by
          rw [← zpow_add₀ (by norm_num)]
          congr 1
          omega
      _ ≤ num := least
  · calc (num : ℚ) < 2 ^ ((num.log2 : Int) + 1) := most
      _ = 2 ^ ((num.log2 : Int) - den.log2 + 1) * 2 ^ (den.log2 : Int) := by
          rw [← zpow_add₀ (by norm_num)]
          congr 1
          omega
      _ ≤ 2 ^ ((num.log2 : Int) - den.log2 + 1) * den :=
          mul_le_mul_of_nonneg_left least' larger.le

lemma scaled_lt (power : Int) {exponent : Int} {x : ℚ} (h : x < 2 ^ (power + exponent)) :
    x * 2 ^ (-exponent) < 2 ^ power := by
  have unit : (0 : ℚ) < 2 ^ (-exponent) := by positivity
  calc x * 2 ^ (-exponent) < 2 ^ (power + exponent) * 2 ^ (-exponent) :=
        mul_lt_mul_of_pos_right h unit
    _ = 2 ^ power := by rw [← zpow_add₀ (by norm_num), add_neg_cancel_right]

lemma le_scaled (power : Int) {exponent : Int} {x : ℚ} (h : 2 ^ (power + exponent) ≤ x) :
    2 ^ power ≤ x * 2 ^ (-exponent) := by
  have unit : (0 : ℚ) < 2 ^ (-exponent) := by positivity
  calc (2 : ℚ) ^ power = 2 ^ (power + exponent) * 2 ^ (-exponent) := by
        rw [← zpow_add₀ (by norm_num), add_neg_cancel_right]
    _ ≤ x * 2 ^ (-exponent) := mul_le_mul_of_nonneg_right h unit.le

/-- In units of the fitting exponent, a ratio has the size of a significand. -/
lemma fittingExponent_fits (positive : 0 < num) (also : 0 < den) :
    (2 : ℚ) ^ (52 + fittingExponent num den) ≤ (num : ℚ) / den ∧
      (num : ℚ) / den < 2 ^ (53 + fittingExponent num den) := by
  obtain ⟨least, most⟩ := ratio_bounds positive also
  have exact (exponent : Int) : 2 ^ 53 ≤
      (scaleRatio num den (-exponent)).1 / (scaleRatio num den (-exponent)).2 ↔
        (2 : ℚ) ^ (53 + exponent) ≤ num / den := by
    rw [le_scaled_div positive also]
    constructor
    · intro h
      by_contra small
      have := scaled_lt 53 (not_le.mp small)
      norm_num at h this
      linarith
    · intro h
      have := le_scaled 53 h
      norm_num at this ⊢
      linarith
  rw [fittingExponent]
  generalize guessed : (num.log2 : Int) - den.log2 - 53 = guess
  split
  · rename_i large
    have := (exact guess).mp large
    constructor
    · rwa [show 52 + (guess + 1) = 53 + guess by omega]
    · rwa [show 53 + (guess + 1) = (num.log2 : Int) - den.log2 + 1 by omega]
  · rename_i small
    constructor
    · rwa [show 52 + guess = (num.log2 : Int) - den.log2 - 1 by omega]
    · exact not_le.mp fun h => small ((exact guess).mpr h)

/-- A ratio that is rounded in units of a power of two. -/
def roundedTo (negative : Bool) (num den : Nat) (exponent : Int) : Double :=
  let rounded := roundQuotient (scaleRatio num den (-exponent)).1 (scaleRatio num den (-exponent)).2
  if rounded = Nat.pow 2 53 then ⟨negative, Nat.pow 2 52, exponent + 1⟩
  else ⟨negative, rounded, exponent⟩

lemma ofRatio?_eq (nonzero : num ≠ 0) :
    ofRatio? negative num den =
      let result := roundedTo negative num den (max (fittingExponent num den) leastExponent)
      if result.exponent > greatestExponent then none else some result := by
  rw [ofRatio?, if_neg nonzero]
  rfl

lemma roundedTo_regular (positive : 0 < num) (also : 0 < den) :
    (roundedTo negative num den (max (fittingExponent num den) leastExponent)).Regular := by
  obtain ⟨least, most⟩ := fittingExponent_fits positive also
  generalize chosen : max (fittingExponent num den) leastExponent = exponent
  rw [roundedTo]
  obtain ⟨low, high⟩ := roundQuotient_bounds (scaleRatio num den (-exponent)).1
    (scaleRatio num den (-exponent)).2
  generalize roundQuotient (scaleRatio num den (-exponent)).1 (scaleRatio num den (-exponent)).2 =
    rounded at low high ⊢
  have small : rounded ≤ 2 ^ 53 := by
    refine high.trans (Nat.lt_iff_add_one_le.mp (not_le.mp ?_))
    rw [le_scaled_div positive also]
    have above : (num : ℚ) / den < 2 ^ (53 + exponent) :=
      most.trans_le (zpow_le_zpow_right₀ (by norm_num) (by omega))
    have := scaled_lt 53 above
    norm_num at this ⊢
    linarith
  have large (above : leastExponent < exponent) : 2 ^ 52 ≤ rounded := by
    have same : fittingExponent num den = exponent := by omega
    refine le_trans ?_ low
    rw [le_scaled_div positive also]
    rw [same] at least
    have := le_scaled 52 least
    norm_num at this ⊢
    linarith
  split
  · constructor
    · change 2 ^ 52 < 2 ^ 53
      norm_num
    · intro less
      exact absurd less (lt_irrefl _)
    · change leastExponent ≤ exponent + 1
      omega
  · rename_i other
    constructor
    · exact lt_of_le_of_ne small other
    · intro less
      by_contra above
      change ¬exponent = leastExponent at above
      exact absurd (large (by omega)) (not_le.mpr less)
    · change leastExponent ≤ exponent
      omega

/-- Rounding gives doubles in the unique form of the format. -/
lemma ofRatio?_regular (also : 0 < den) (h : ofRatio? negative num den = some d) : d.Regular := by
  by_cases nonzero : num = 0
  · rw [ofRatio?, if_pos nonzero] at h
    obtain rfl := Option.some.inj h
    exact ⟨Nat.two_pow_pos 53, fun _ => rfl, le_refl _⟩
  · rw [ofRatio?_eq nonzero] at h
    dsimp only at h
    split at h
    · cases h
    · obtain rfl := Option.some.inj h
      exact roundedTo_regular (Nat.pos_of_ne_zero nonzero) also

end Double

namespace Json

@[simp] lemma regular_number {n : Number} : (number n).Regular ↔ n.Regular := by
  constructor
  · rintro ⟨number, -⟩
    exact number n rfl
  · intro regular
    refine ⟨?_, nofun⟩
    rintro m same
    obtain rfl := Json.number.inj same
    exact regular

/-- What is regular stays so when it is taken apart, or when its whole numbers become doubles. -/
lemma regular_hereditary : Hereditary Regular where
  parts := by
    rintro v part ⟨-, parts⟩ mem
    exact parts part mem
  double := by
    intro n d regular converted
    cases n with
    | whole n => exact regular_number.mpr (Double.ofRatio?_regular Nat.one_pos converted)
    | double d' =>
      obtain rfl := Option.some.inj converted
      exact regular

lemma Regular.array {items : List Json} (each : ∀ v ∈ items, v.Regular) : (array items).Regular :=
  ⟨nofun, each⟩

lemma Regular.object {fields : List (String × Json)} (each : ∀ field ∈ fields, field.2.Regular) :
    (object fields).Regular := by
  refine ⟨nofun, ?_⟩
  intro part mem
  obtain ⟨field, inside, rfl⟩ := List.mem_map.mp mem
  exact each field inside

@[simp] lemma regular_null : null.Regular := ⟨nofun, nofun⟩

@[simp] lemma regular_bool (b : Bool) : (bool b).Regular := ⟨nofun, nofun⟩

@[simp] lemma regular_string (s : String) : (string s).Regular := ⟨nofun, nofun⟩

@[simp] lemma regular_ofText? (text : Option String) : (ofText? text).Regular := by
  cases text
  · exact regular_null
  · exact regular_string _

@[simp] lemma regular_ofNat? (n : Option Nat) : (ofNat? n).Regular := by
  cases n with
  | none => exact regular_null
  | some n => exact regular_number.mpr trivial

@[simp] lemma regular_strings (texts : List String) : (strings texts).Regular := by
  refine .array ?_
  intro v mem
  obtain ⟨s, -, rfl⟩ := List.mem_map.mp mem
  exact regular_string s

lemma regular_ofDouble? {d? : Option Double}
    (each : ∀ d, d? = some d → (number (.double d)).Regular) : (ofDouble? d?).Regular := by
  cases d? with
  | none => exact regular_null
  | some d => exact each d rfl

end Json

namespace Node

variable {defined : List String} {target? : String → String → Option (Option Json)} {form : Json}

lemma regular_noteFields {notes : Notes} (examples : ∀ v ∈ notes.examples, v.Regular) :
    ∀ field ∈ noteFields notes, field.2.Regular := by
  intro field mem
  rw [noteFields] at mem
  rcases List.mem_append.mp mem with mem | mem
  · obtain rfl := List.mem_singleton.mp mem
    exact Json.regular_ofText? _
  · split at mem
    · cases mem
    · obtain rfl := List.mem_singleton.mp mem
      exact .array examples

/-- A description is regular, when its own fields and the examples are. -/
lemma regular_form {kind : Kind Node} {notes : Notes} {fields : Fields Json}
    (examples : ∀ v ∈ notes.examples, v.Regular) (each : ∀ field ∈ fields, field.2.Regular) :
    (Node.form (.mk kind notes) fields).Regular := by
  refine .object ?_
  intro field mem
  rcases List.mem_append.mp mem with mem | mem
  · rcases List.mem_append.mp mem with mem | mem
    · obtain rfl := List.mem_singleton.mp mem
      exact Json.regular_string _
    · exact each field mem
  · exact regular_noteFields examples field mem

lemma regular_describeItems {nodes : List Node} {forms : List Json}
    (each : ∀ node ∈ nodes, ∀ form, describeWith target? node = some form → form.Regular)
    (h : describeItems target? nodes = some forms) : ∀ form ∈ forms, form.Regular := by
  induction nodes generalizing forms with
  | nil =>
    obtain rfl := Option.some.inj h
    exact nofun
  | cons node nodes ih =>
    obtain ⟨first, made, h⟩ := Option.bind_eq_some_iff.mp h
    obtain ⟨more, rest, h⟩ := Option.bind_eq_some_iff.mp h
    obtain rfl := Option.some.inj h
    refine List.forall_mem_cons.mpr ⟨each node List.mem_cons_self first made, ?_⟩
    exact ih (fun n mem => each n (List.mem_cons_of_mem _ mem)) rest

lemma regular_describeShape {shape : List (String × Node)} {forms : List (String × Json)}
    (each : ∀ node ∈ shape.map Prod.snd, ∀ form, describeWith target? node = some form →
      form.Regular)
    (h : describeShape target? shape = some forms) : ∀ form ∈ forms, form.2.Regular := by
  induction shape generalizing forms with
  | nil =>
    obtain rfl := Option.some.inj h
    exact nofun
  | cons field shape ih =>
    obtain ⟨key, node⟩ := field
    obtain ⟨first, made, h⟩ := Option.bind_eq_some_iff.mp h
    obtain ⟨more, rest, h⟩ := Option.bind_eq_some_iff.mp h
    obtain rfl := Option.some.inj h
    refine List.forall_mem_cons.mpr ⟨each node List.mem_cons_self first made, ?_⟩
    exact ih (fun n mem => each n (List.mem_cons_of_mem _ mem)) rest

/-- The description of a layer is regular, when those of its children are and so is what is written
for the target of a reference. -/
lemma regular_layer {kind : Kind Node} {notes : Notes} (layer : kind.Converted defined Json.Regular)
    (examples : ∀ v ∈ notes.examples, v.Regular)
    (child : ∀ node ∈ kind.children, ∀ form, describeWith target? node = some form → form.Regular)
    (written : ∀ key target, target ∈ defined → ∀ form, target? key target = some (some form) →
      form.Regular)
    (h : describeWith target? (.mk kind notes) = some form) : form.Regular := by
  unfold describeWith at h
  cases kind with
  | number checks =>
    obtain rfl := Option.some.inj h
    refine regular_form examples ?_
    simpa using ⟨Json.regular_ofDouble? fun d given => layer d (.inl given),
      Json.regular_ofDouble? fun d given => layer d (.inr (.inl given)),
      Json.regular_ofDouble? fun d given => layer d (.inr (.inr (.inl given))),
      Json.regular_ofDouble? fun d given => layer d (.inr (.inr (.inr given)))⟩
  | tuple items rest =>
    obtain ⟨forms, made, h⟩ := Option.bind_eq_some_iff.mp h
    have regular := regular_describeItems (fun n mem => child n (by simp [Kind.children, mem])) made
    cases rest with
    | none =>
      obtain rfl := Option.some.inj h
      refine regular_form examples ?_
      simpa using Json.Regular.array regular
    | some rest =>
      obtain ⟨last, further, h⟩ := Option.bind_eq_some_iff.mp h
      obtain rfl := Option.some.inj h
      refine regular_form examples ?_
      simpa using ⟨Json.Regular.array regular, child rest (by simp [Kind.children]) last further⟩
  | object shape =>
    obtain ⟨forms, made, h⟩ := Option.bind_eq_some_iff.mp h
    obtain rfl := Option.some.inj h
    refine regular_form examples ?_
    simpa using Json.Regular.object (regular_describeShape child made)
  | union options | taggedUnion _ options =>
    obtain ⟨forms, made, h⟩ := Option.bind_eq_some_iff.mp h
    obtain rfl := Option.some.inj h
    refine regular_form examples ?_
    simpa using Json.Regular.array (regular_describeItems child made)
  | record left right | intersection left right | pipeline left right | function left right =>
    obtain ⟨first, made, h⟩ := Option.bind_eq_some_iff.mp h
    obtain ⟨second, further, h⟩ := Option.bind_eq_some_iff.mp h
    obtain rfl := Option.some.inj h
    refine regular_form examples ?_
    simpa using ⟨child left (by simp [Kind.children]) first made,
      child right (by simp [Kind.children]) second further⟩
  | array inner _ _ | optional inner | nullable inner | readonly inner | branded inner _
  | preprocess inner _ =>
    obtain ⟨first, made, h⟩ := Option.bind_eq_some_iff.mp h
    obtain rfl := Option.some.inj h
    refine regular_form examples ?_
    simpa using child inner (by simp [Kind.children]) first made
  | default inner value | fallback inner value =>
    obtain ⟨first, made, h⟩ := Option.bind_eq_some_iff.mp h
    obtain rfl := Option.some.inj h
    refine regular_form examples ?_
    simpa using ⟨child inner (by simp [Kind.children]) first made, layer⟩
  | effect inner effect =>
    obtain ⟨first, made, h⟩ := Option.bind_eq_some_iff.mp h
    obtain rfl := Option.some.inj h
    refine regular_form examples ?_
    have named (key name : String) : (Json.object [(key, .string name)]).Regular :=
      .object (by simp)
    cases effect <;> simpa [named] using child inner (by simp [Kind.children]) first made
  | reference key target =>
    obtain ⟨answer, given, h⟩ := Option.bind_eq_some_iff.mp h
    obtain rfl := Option.some.inj h
    refine regular_form examples ?_
    cases answer with
    | none => simp
    | some form => simpa using written key target layer.2 form given
  | literal value =>
    obtain rfl := Option.some.inj h
    refine regular_form examples ?_
    have regular : value.Regular := layer
    simpa using regular
  | _ =>
    obtain rfl := Option.some.inj h
    refine regular_form examples ?_
    simp

lemma regular_describeWith {node : Node} (converted : node.Converted defined Json.Regular)
    (written : ∀ key target, target ∈ defined → ∀ form, target? key target = some (some form) →
      form.Regular)
    (h : describeWith target? node = some form) : form.Regular := by
  induction node using Node.induct generalizing form with
  | step kind notes ih =>
    obtain ⟨layer, examples, children⟩ := converted
    exact regular_layer layer examples
      (fun child mem form made => ih child mem (children child mem) made) written h

/-- Descriptions are regular, by induction on how deep references are followed. -/
lemma regular_describe {definitions : Definitions}
    (closed : ∀ target ∈ defined, (definitions.resolve target).Converted defined Json.Regular)
    (depth : Nat) (opened : List String) {node : Node}
    (converted : node.Converted defined Json.Regular)
    (h : describe definitions depth opened node = some form) : form.Regular := by
  induction depth generalizing opened node form with
  | zero =>
    refine regular_describeWith converted ?_ h
    intro key target _ form given
    split at given
    · cases given
    · cases given
  | succ depth ih =>
    refine regular_describeWith converted ?_ h
    intro key target mem form given
    split at given
    · cases given
    · obtain ⟨inner, made, same⟩ := Option.map_eq_some_iff.mp given
      obtain rfl := Option.some.inj same
      exact ih _ (closed target mem) made

end Node

namespace Definitions

lemma regular_canonical {defined : List String} {definitions : Definitions}
    (closed : ∀ target ∈ defined, (definitions.resolve target).Converted defined Json.Regular)
    {node : Node} (converted : node.Converted defined Json.Regular) :
    (definitions.canonical node).Regular := by
  obtain ⟨form, made⟩ := definitions.exists_canonical node
  rw [canonical, made]
  exact Node.regular_describe closed _ [] converted made

end Definitions

end EventContracts
