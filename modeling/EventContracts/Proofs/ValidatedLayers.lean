import EventContracts.Schema.Validation
import Mathlib.Tactic.Lemma

/-! What a layer of a schema makes of a value, said once: the rules by which validation ends with a
result, given what the parts of the layer make of theirs. What is known of all results is proved by
cases on the rules. -/

namespace EventContracts

section Results

variable {α β ε : Type}

lemma exists_of_bind {first : Except ε α} {next : α → Except ε β} {b : β}
    (h : (first >>= next) = .ok b) : ∃ a, first = .ok a ∧ next a = .ok b := by
  cases first with
  | error cause => cases h
  | ok a => exact ⟨a, rfl, h⟩

lemma ok_of_ite {c : Prop} [Decidable c] {cause : ε} {a b : α}
    (h : (if c then Except.ok a else .error cause) = .ok b) : c ∧ a = b := by
  split at h
  · exact ⟨‹c›, Except.ok.inj h⟩
  · cases h

lemma ok_of_guard {c : Prop} [Decidable c] {cause : ε} {first : Except ε α} {a : α}
    (h : (if c then .error cause else first) = .ok a) : ¬c ∧ first = .ok a := by
  split at h
  · cases h
  · exact ⟨‹¬c›, h⟩

lemma ok_of_map {f : α → β} {result : Except ε α} {b : β} (h : result.map f = .ok b) :
    ∃ a, result = .ok a ∧ f a = b := by
  cases result with
  | error cause => cases h
  | ok a => exact ⟨a, rfl, Except.ok.inj h⟩

lemma ok_of_under {segment : String} {result : Except Failure α} {a : α}
    (h : Failure.under segment result = .ok a) : result = .ok a := by
  match result with
  | .ok _ => exact h
  | .error (.invalid _) => cases h
  | .error (.interrupted _) => cases h

end Results

section Rules

open Node

/-- What a layer makes of a value, absent or there. -/
inductive Kind.Makes (patterns : PatternReader) (deref : String → Option Json → Outcome) :
    Kind Node → Option Json → Option Json → Prop where
  | string {checks input w} (made : checks.validate patterns input = .ok w) :
      Makes patterns deref (.string checks) input (some w)
  | number {checks input w} (made : checks.validate input = .ok w) :
      Makes patterns deref (.number checks) input (some w)
  | bigint {coerce input w} (made : validateBigint coerce input = .ok w) :
      Makes patterns deref (.bigint coerce) input (some w)
  | boolean {coerce input w} (made : validateBoolean coerce input = .ok w) :
      Makes patterns deref (.boolean coerce) input (some w)
  | date {coerce input w} (made : validateDate coerce input = .ok w) :
      Makes patterns deref (.date coerce) input (some w)
  | null : Makes patterns deref .null (some .null) (some .null)
  | any {input} : Makes patterns deref .any input input
  | unknown {input} : Makes patterns deref .unknown input input
  | void : Makes patterns deref .void none none
  | literal {value v : Json} (same : v.same value) :
      Makes patterns deref (.literal value) (some v) (some v)
  | choice {values text} (listed : text ∈ values) :
      Makes patterns deref (.choice values) (some (.string text)) (some (.string text))
  | array {item least most values items}
      (counted : checkLength "array" values.length least most = .ok ())
      (each : collectItems (fun v => validateWith patterns deref item (some v)) 0 values =
        .ok items) :
      Makes patterns deref (.array item least most) (some (.array values)) (some (.array items))
  | tuple {nodes values items} (count : nodes.length = values.length)
      (each : validateItems patterns deref nodes 0 values = .ok items) :
      Makes patterns deref (.tuple nodes none) (some (.array values)) (some (.array items))
  | longTuple {nodes rest values first more} (enough : nodes.length ≤ values.length)
      (each : validateItems patterns deref nodes 0 values = .ok first)
      (further : collectItems (fun v => validateWith patterns deref rest (some v)) nodes.length
        (values.drop nodes.length) = .ok more) :
      Makes patterns deref (.tuple nodes (some rest)) (some (.array values))
        (some (.array (first ++ more)))
  | object {shape fields found} (shaped : validateShape patterns deref shape fields = .ok found) :
      Makes patterns deref (.object shape) (some (.object fields)) (some (.object found))
  | record {key value fields found}
      (entries :
        fields.foldlM (recordEntry (validateWith patterns deref key)
          (validateWith patterns deref value)) [] =
        .ok found) :
      Makes patterns deref (.record key value) (some (.object fields)) (some (.object found))
  | union {options input result} (first : validateFirst patterns deref options input = .ok result) :
      Makes patterns deref (.union options) input result
  | taggedUnion {discriminator options input result}
      (first : validateFirst patterns deref options input = .ok result) :
      Makes patterns deref (.taggedUnion discriminator options) input result
  | intersection {left right input a b result}
      (fromLeft : validateWith patterns deref left input = .ok a)
      (fromRight : validateWith patterns deref right input = .ok b)
      (merged : mergeResults a b = .ok result) :
      Makes patterns deref (.intersection left right) input result
  | absent {inner} : Makes patterns deref (.optional inner) none none
  | optional {inner v result} (made : validateWith patterns deref inner (some v) = .ok result) :
      Makes patterns deref (.optional inner) (some v) result
  | nulled {inner} : Makes patterns deref (.nullable inner) (some .null) (some .null)
  | nullable {inner input result} (other : input ≠ some .null)
      (made : validateWith patterns deref inner input = .ok result) :
      Makes patterns deref (.nullable inner) input result
  | default {inner value input result}
      (made : validateWith patterns deref inner (some (input.getD value)) = .ok result) :
      Makes patterns deref (.default inner value) input result
  | fallback {inner value input result}
      (made : validateWith patterns deref inner input = .ok result) :
      Makes patterns deref (.fallback inner value) input result
  | caught {inner value input issue}
      (refused : validateWith patterns deref inner input = .error (.invalid issue)) :
      Makes patterns deref (.fallback inner value) input (some value)
  | branded {inner brand input result}
      (made : validateWith patterns deref inner input = .ok result) :
      Makes patterns deref (.branded inner brand) input result
  | readonly {inner input result} (made : validateWith patterns deref inner input = .ok result) :
      Makes patterns deref (.readonly inner) input result
  | refine {inner test input result} (made : validateWith patterns deref inner input = .ok result)
      (holds : test.check (result.getD .null)) :
      Makes patterns deref (.effect inner (.refine test)) input result
  | transform {inner transform input parsed w}
      (made : validateWith patterns deref inner input = .ok parsed)
      (applied : transform.apply (parsed.getD .null) = .ok w) :
      Makes patterns deref (.effect inner (.transform transform)) input (some w)
  | preprocess {inner transform input prepared result}
      (applied : transform.apply (input.getD .null) = .ok prepared)
      (made : validateWith patterns deref inner (some prepared) = .ok result) :
      Makes patterns deref (.preprocess inner transform) input result
  | pipeline {first second input parsed result}
      (before : validateWith patterns deref first input = .ok parsed)
      (made : validateWith patterns deref second parsed = .ok result) :
      Makes patterns deref (.pipeline first second) input result
  | reference {key target input result} (made : deref target input = .ok result) :
      Makes patterns deref (.reference key target) input result

end Rules

namespace Node

variable {patterns : PatternReader} {deref : String → Option Json → Outcome} {kind : Kind Node}
  {notes : Notes} {input result : Option Json}

lemma makes_of_literal {value : Json}
    (h : validateWith patterns deref (.mk (.literal value) notes) input = .ok result) :
    (Kind.literal value).Makes patterns deref input result := by
  cases input with
  | none => cases h
  | some v =>
    obtain ⟨same, rfl⟩ := ok_of_ite h
    exact .literal same

lemma makes_of_choice {values : List String}
    (h : validateWith patterns deref (.mk (.choice values) notes) input = .ok result) :
    (Kind.choice values).Makes patterns deref input result := by
  cases input with
  | none => cases h
  | some v =>
    cases v with
    | string text =>
      obtain ⟨listed, rfl⟩ := ok_of_ite h
      exact .choice (List.contains_iff_mem.mp listed)
    | _ => cases h

lemma makes_of_array {item : Node} {least most : Option Nat}
    (h : validateWith patterns deref (.mk (.array item least most) notes) input = .ok result) :
    (Kind.array item least most).Makes patterns deref input result := by
  cases input with
  | none => cases h
  | some v =>
    cases v with
    | array values =>
      obtain ⟨⟨⟩, counted, h⟩ := exists_of_bind h
      obtain ⟨items, each, h⟩ := exists_of_bind h
      obtain rfl := Except.ok.inj h
      exact .array counted each
    | _ => cases h

/-- A tuple without further schema is as long as its list, and any other one at most as long. -/
lemma makes_of_tuple {nodes : List Node} {rest : Option Node}
    (h : validateWith patterns deref (.mk (.tuple nodes rest) notes) input = .ok result) :
    (Kind.tuple nodes rest).Makes patterns deref input result := by
  cases input with
  | none => cases h
  | some v =>
    cases v with
    | array values =>
      unfold validateWith at h
      obtain ⟨count, h⟩ := ok_of_guard h
      simp only [Bool.or_eq_true, Bool.and_eq_true, decide_eq_true_eq, not_or, not_and,
        Nat.not_lt, gt_iff_lt] at count
      obtain ⟨enough, closed⟩ := count
      obtain ⟨first, each, h⟩ := exists_of_bind h
      cases rest with
      | none =>
        obtain rfl := Except.ok.inj h
        rw [List.append_nil]
        exact .tuple (Nat.le_antisymm enough (closed rfl)) each
      | some rest =>
        obtain ⟨more, further, h⟩ := exists_of_bind h
        obtain rfl := Except.ok.inj h
        exact .longTuple enough each further
    | _ => cases h

lemma makes_of_object {shape : List (String × Node)}
    (h : validateWith patterns deref (.mk (.object shape) notes) input = .ok result) :
    (Kind.object shape).Makes patterns deref input result := by
  cases input with
  | none => cases h
  | some v =>
    cases v with
    | object fields =>
      obtain ⟨found, shaped, h⟩ := exists_of_bind h
      obtain rfl := Except.ok.inj h
      exact .object shaped
    | _ => cases h

lemma makes_of_record {key value : Node}
    (h : validateWith patterns deref (.mk (.record key value) notes) input = .ok result) :
    (Kind.record key value).Makes patterns deref input result := by
  cases input with
  | none => cases h
  | some v =>
    cases v with
    | object fields =>
      obtain ⟨found, entries, h⟩ := exists_of_bind h
      obtain rfl := Except.ok.inj h
      exact .record entries
    | _ => cases h

lemma makes_of_effect {inner : Node} {effect : Effect}
    (h : validateWith patterns deref (.mk (.effect inner effect) notes) input = .ok result) :
    (Kind.effect inner effect).Makes patterns deref input result := by
  obtain ⟨parsed, made, h⟩ := exists_of_bind h
  cases effect with
  | refine test =>
    obtain ⟨holds, rfl⟩ := ok_of_ite h
    exact .refine made holds
  | transform t =>
    obtain ⟨w, applied, rfl⟩ := ok_of_map h
    exact .transform made applied

/-- A result of validation is made by the rule of the outermost layer. -/
lemma makes_of_validateWith (h : validateWith patterns deref (.mk kind notes) input = .ok result) :
    kind.Makes patterns deref input result := by
  cases kind with
  | literal value => exact makes_of_literal h
  | choice values => exact makes_of_choice h
  | array item _ _ => exact makes_of_array h
  | tuple nodes rest => exact makes_of_tuple h
  | object shape => exact makes_of_object h
  | record key value => exact makes_of_record h
  | effect inner effect => exact makes_of_effect h
  | string _ => obtain ⟨w, made, rfl⟩ := ok_of_map h; exact .string made
  | number _ => obtain ⟨w, made, rfl⟩ := ok_of_map h; exact .number made
  | bigint _ => obtain ⟨w, made, rfl⟩ := ok_of_map h; exact .bigint made
  | boolean _ => obtain ⟨w, made, rfl⟩ := ok_of_map h; exact .boolean made
  | date _ => obtain ⟨w, made, rfl⟩ := ok_of_map h; exact .date made
  | any => obtain rfl := Except.ok.inj h; exact .any
  | unknown => obtain rfl := Except.ok.inj h; exact .unknown
  | null =>
    unfold validateWith at h
    dsimp only at h
    split at h
    · obtain rfl := Except.ok.inj h
      exact .null
    · cases h
  | void =>
    unfold validateWith at h
    dsimp only at h
    split at h
    · obtain rfl := Except.ok.inj h
      exact .void
    · cases h
  | union options => exact .union h
  | taggedUnion _ options => exact .taggedUnion h
  | intersection left right =>
    obtain ⟨a, fromLeft, h⟩ := exists_of_bind h
    obtain ⟨b, fromRight, h⟩ := exists_of_bind h
    exact .intersection fromLeft fromRight h
  | optional inner =>
    cases input with
    | none => obtain rfl := Except.ok.inj h; exact .absent
    | some v => exact .optional h
  | nullable inner =>
    unfold validateWith at h
    dsimp only at h
    split at h
    · obtain rfl := Except.ok.inj h
      exact .nulled
    · exact .nullable ‹_› h
  | default inner value => exact .default h
  | fallback inner value =>
    unfold validateWith at h
    dsimp only at h
    split at h
    · obtain rfl := Except.ok.inj h
      exact .caught ‹_›
    · exact .fallback h
  | branded inner _ => exact .branded h
  | readonly inner => exact .readonly h
  | preprocess inner transform =>
    obtain ⟨prepared, applied, h⟩ := exists_of_bind h
    exact .preprocess applied h
  | pipeline first second =>
    obtain ⟨parsed, before, h⟩ := exists_of_bind h
    exact .pipeline before h
  | reference key target => exact .reference h
  | function _ _ | custom _ => cases h

/-- What the rule of the outermost layer makes is the result of validation. -/
lemma validateWith_of_makes (makes : kind.Makes patterns deref input result) :
    validateWith patterns deref (.mk kind notes) input = .ok result := by
  unfold validateWith
  cases makes with
  | string made | number made | bigint made | boolean made | date made =>
    dsimp only
    rw [made]
    rfl
  | null | any | unknown | void | absent | nulled => rfl
  | literal same => exact if_pos same
  | choice listed => exact if_pos (List.contains_iff_mem.mpr listed)
  | array counted each =>
    dsimp only
    rw [counted, each]
    rfl
  | @tuple nodes values _ count each =>
    dsimp only
    rw [if_neg (by simp [count]), each]
    change Except.ok _ = _
    rw [List.append_nil]
  | longTuple enough each further =>
    dsimp only
    rw [if_neg (by simpa using enough), each]
    change (_ >>= _) = _
    rw [further]
    rfl
  | object shaped =>
    dsimp only
    rw [shaped]
    rfl
  | record entries =>
    dsimp only
    rw [entries]
    rfl
  | union first | taggedUnion first => exact first
  | intersection fromLeft fromRight merged =>
    dsimp only
    rw [fromLeft, fromRight]
    exact merged
  | optional made | default made | branded made | readonly made | reference made => exact made
  | nullable other made =>
    dsimp only
    split
    · exact absurd rfl other
    · exact made
  | fallback made =>
    dsimp only
    rw [made]
  | caught refused =>
    dsimp only
    rw [refused]
  | refine made holds =>
    dsimp only
    rw [made]
    exact if_pos holds
  | transform made applied =>
    dsimp only
    rw [made]
    change Except.map some _ = _
    rw [applied]
    rfl
  | preprocess applied made =>
    dsimp only
    rw [applied]
    exact made
  | pipeline before made =>
    dsimp only
    rw [before]
    exact made

end Node

end EventContracts
