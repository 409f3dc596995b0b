import EventContracts.Proofs.FormedSchemas
import EventContracts.Proofs.TransparentLabels
import EventContracts.Proofs.TypedWalks

/-! What the two views know of a transformed value. Each view tries the transform on a sample of its
own: the documented view takes the first type of the schema object of the input, the typed view the
type of the input when it is no union. The views agree when both samples show the same, which holds
for every input whose layers have one type in both views, and when null is not accepted besides. -/

namespace EventContracts

open Depicter TypeScript

namespace Primitive

/-- The type of a primitive type that a transform was seen to give. -/
def keyword : Primitive → Keyword
  | number => .number
  | string => .string
  | boolean => .boolean

lemma keyword_injective : Function.Injective keyword := by
  intro p q same
  cases p <;> cases q <;> first | rfl | cases same

lemma keyword_ne_any (p : Primitive) : p.keyword ≠ .any := by
  cases p <;> decide

lemma name_injective : Function.Injective name := by
  intro p q same
  cases p <;> cases q <;> simp [name] at same ⊢

end Primitive

/-- The type of what a transform gives, when it was seen. -/
def TypeScript.TypeExpr.inferred : Option Primitive → TypeExpr
  | some p => .keyword p.keyword
  | none => .keyword .any

/-- The schema object of what a transform gives, when it was seen. -/
def SchemaObject.inferred : Option Primitive → SchemaObject
  | some p => ofType p.name
  | none => any

/-- What is seen of a transform on a sample, if there is one. -/
def Setting.seen (setting : Setting) (node : Node) (sample : Option SampleType) :
    Option Primitive :=
  match sample with
  | none => none
  | some t =>
    match setting.library.probe node t.sample with
    | .ok (.ok p) => some p
    | _ => none

/-- Whether a type and a schema object infer the same of a value: the same primitive type, and
nothing else, or nothing at all. -/
structure SameInference (type : TypeExpr) (s : SchemaObject) : Prop where
  primitive : ∀ p : Primitive, type.bare = .keyword p.keyword ↔ s = .ofType p.name
  otherwise : (∀ p : Primitive, type.bare ≠ .keyword p.keyword) →
    type.bare = .keyword .any ∧ s = .any

/-- What is seen depends on the values of samples only. -/
lemma Setting.seen_congr (setting : Setting) (node : Node) {a b : Option SampleType}
    (same : a.map SampleType.sample = b.map SampleType.sample) :
    setting.seen node a = setting.seen node b := by
  cases a with
  | none =>
    cases b with
    | none => rfl
    | some t => cases same
  | some t =>
    cases b with
    | none => cases same
    | some t' => simp only [Setting.seen, Option.some.inj same]

section Inference

variable {seen other : Option Primitive} {s : SchemaObject}

/-- Types without null infer the same exactly when the same was seen. -/
lemma sameInference_inferred_iff :
    SameInference (.inferred seen) (.inferred other) ↔ other = seen := by
  constructor
  · intro same
    cases seen with
    | some p =>
      have typed := (same.primitive p).mp rfl
      cases other with
      | none => cases congrArg SchemaObject.typeNames typed
      | some q =>
        have names := congrArg SchemaObject.typeNames typed
        rw [Primitive.name_injective (TypeNames.one.inj (Option.some.inj names))]
    | none =>
      obtain ⟨-, untyped⟩ := same.otherwise fun p is =>
        p.keyword_ne_any (TypeExpr.keyword.inj is).symm
      cases other with
      | none => rfl
      | some q => cases congrArg SchemaObject.typeNames untyped
  · rintro rfl
    cases other with
    | none =>
      refine ⟨fun p => ⟨fun is => ?_, fun is => ?_⟩, fun _ => ⟨rfl, rfl⟩⟩
      · exact absurd (TypeExpr.keyword.inj is).symm p.keyword_ne_any
      · cases congrArg SchemaObject.typeNames is
    | some q =>
      refine ⟨fun p => ⟨fun is => ?_, fun is => ?_⟩, fun apart => absurd rfl (apart q)⟩
      · rw [Primitive.keyword_injective (TypeExpr.keyword.inj is)]
        rfl
      · have names := congrArg SchemaObject.typeNames is
        rw [Primitive.name_injective (TypeNames.one.inj (Option.some.inj names))]
        rfl

/-- A schema object that is neither plain nor free of conditions infers nothing alike. -/
lemma not_sameInference (conditions : s ≠ .any) (plain : ∀ p : Primitive, s ≠ .ofType p.name) :
    ¬ SameInference (.inferred seen) s := by
  intro same
  cases seen with
  | some p => exact plain p ((same.primitive p).mp rfl)
  | none =>
    exact conditions (same.otherwise fun p is => p.keyword_ne_any (TypeExpr.keyword.inj is).symm).2

/-- Null beside a type that was seen is not inferred by a type. -/
lemma sameInference_labelled_iff {null : Bool} :
    SameInference (.inferred seen) ((SchemaObject.inferred other).labelled null) ↔
      other = seen ∧ (other ≠ none → null = false) := by
  cases null with
  | false =>
    rw [SchemaObject.labelled_false, sameInference_inferred_iff]
    simp
  | true =>
    cases other with
    | none =>
      have free : (SchemaObject.inferred none).labelled true = .inferred none := rfl
      rw [free, sameInference_inferred_iff]
      simp
    | some p =>
      have listed : ((SchemaObject.inferred (some p)).labelled true).typeNames =
          some (.many [p.name, "null"]) := by cases p <;> rfl
      refine iff_of_false (not_sameInference ?_ ?_) (by simp)
      · intro is
        rw [is] at listed
        cases listed
      · intro q is
        rw [is] at listed
        cases listed

end Inference

section Runs

variable {U : Type} {depicter : Depicter U} {setting : Setting} {table later : AliasTable U}

/-- A depiction whose walk begins with that of another node has depicted that node. -/
lemma Depicter.depict_first
    (unknown : ∀ name direction, ∃ cause,
      depicter.walk (.of (.custom name)) direction = .halt cause)
    {node inner : Node} {direction : Direction} {next : U → Walk U U} {view : U}
    (begins : depicter.walk node direction = depicter.walk inner direction >>= next)
    (ok : depicter.depict setting node direction table = (.ok view, later)) :
    ∃ a middle, depicter.depict setting inner direction table = (.ok a, middle) ∧
      depicter.replay setting later (depicter.walk inner direction) = .ok a ∧
      depicter.replay setting later (next a) = .ok view := by
  obtain ⟨visits, run⟩ := runs_depict setting unknown table node direction
  rw [ok, begins] at run
  obtain ⟨a, before, after, middle, first, rest⟩ := run.first
  exact ⟨a, middle, first.depicted unknown, first.replayed rest.extends rfl,
    rest.replayed (.refl _) rfl⟩

lemma replay_probe {node : Node} {sample : Json} {result : Except ProbeError Primitive}
    (h : depicter.replay setting table (Walk.probe node sample) = .ok result) :
    setting.library.probe node sample = .ok result := by
  change depicter.replay setting table
    (Walk.check (setting.library.validate node (some sample)).probed) = .ok result at h
  rw [Library.probe]
  cases probed : (setting.library.validate node (some sample)).probed with
  | ok found =>
    rw [probed] at h
    rw [Except.ok.inj h]
  | error cause =>
    rw [probed] at h
    cases h

end Runs

namespace Document

variable {setting : Setting} {table : AliasTable SchemaObject} {node : Node} {s s' : SchemaObject}

lemma replay_transformed {input : SchemaObject}
    (h : depicter.replay setting table (transformed node input) = .ok s) :
    s = .inferred (setting.seen node input.sampleType?) := by
  rw [transformed] at h
  split at h
  · rename_i untyped
    rw [untyped]
    exact (Except.ok.inj h).symm
  · rename_i t typed
    obtain ⟨result, probed, h⟩ := replay_bind_ok h
    rw [typed, Setting.seen, replay_probe probed]
    obtain rfl := Except.ok.inj h
    cases result <;> rfl

end Document

namespace TypeScript

variable {setting : Setting} {style : OptionalStyle} {table : AliasTable TypeExpr} {node : Node}
  {type : TypeExpr}

lemma replay_transformed {input : TypeExpr}
    (h : (depicter style).replay setting table (transformed node input) = .ok type) :
    type = .inferred (setting.seen node input.sampleType?) := by
  rw [transformed] at h
  split at h
  · rename_i unknown
    rw [unknown]
    exact (Except.ok.inj h).symm
  · rename_i t known
    obtain ⟨result, probed, h⟩ := replay_bind_ok h
    rw [known, Setting.seen, replay_probe probed]
    obtain rfl := Except.ok.inj h
    rcases result with _ | p
    · rfl
    · cases p <;> rfl

end TypeScript

namespace Node

/-- Whether both views of output have one type for a node, so that they take samples which show the
same. A timestamp that is checked as a text has a type without its format, and what may be null, or
is listed, a union, or an intersection has no single type. -/
def sampledAlike (style : OptionalStyle) : Node → Bool
  | .mk kind _ => match kind with
    | .string checks => checks.format != some .dateTime
    | .literal _ => false
    | .choice _ => false
    | .union _ => false
    | .taggedUnion .. => false
    | .intersection .. => false
    | .nullable _ => false
    | .reference .. => false
    | .optional inner => !style.orUndefined && sampledAlike style inner
    | .default inner _ => sampledAlike style inner
    | .fallback inner _ => sampledAlike style inner
    | .branded inner _ => sampledAlike style inner
    | .readonly inner => sampledAlike style inner
    | .effect inner _ => sampledAlike style inner
    | .preprocess inner _ => sampledAlike style inner
    | .pipeline _ output => sampledAlike style output
    | _ => true
termination_by structural node => node

end Node

/-- What is known of the two views of a node that is sampled alike. -/
structure Sampled (s : SchemaObject) (type : TypeExpr) : Prop where
  itself : s.isReference = false
  named : ∀ t, s.typeNames = some t → t.first? ≠ none
  same : s.sampleType?.map SampleType.sample = type.sampleType?.map SampleType.sample

namespace Sampled

variable {s : SchemaObject} {type : TypeExpr}

/-- A schema object with one type. -/
lemma typed {name : String} (itself : s.isReference = false)
    (single : s.typeNames = some (.one name))
    (same : (SampleType.ofDepicted? name s.format).map SampleType.sample =
      type.sampleType?.map SampleType.sample) : Sampled s type where
  itself := itself
  named := by
    intro t is
    rw [single] at is
    obtain rfl := Option.some.inj is
    exact Option.some_ne_none name
  same := by
    rw [SchemaObject.sampleType?, single]
    exact same

/-- A schema object without type beside a type without sample. -/
lemma untyped (itself : s.isReference = false) (free : s.typeNames = none)
    (unknown : type.sampleType? = none) : Sampled s type where
  itself := itself
  named := fun t is => by rw [free] at is; cases is
  same := by rw [SchemaObject.sampleType?, free, unknown]; rfl

lemma first?_withNull {t : TypeNames} (named : t.first? ≠ none) :
    t.withNull.first? = t.first? := by
  rw [TypeNames.withNull]
  split
  · rfl
  · obtain ⟨name, first⟩ := Option.ne_none_iff_exists'.mp named
    have names : t.names.head? = some name := first
    change (t.names ++ ["null"]).head? = t.names.head?
    rw [List.head?_append, names]
    rfl

/-- Notes do not change what a schema object is sampled by. -/
lemma overlay (sampled : Sampled s type) (null : Bool) (description : Option String)
    (examples : Option (List Json)) :
    Sampled (s.overlay {
      description := description
      typeNames := if null then s.typeNames.map TypeNames.withNull else none
      examples := examples }) type := by
  cases null with
  | false => exact ⟨sampled.itself, sampled.named, sampled.same⟩
  | true =>
    cases types : s.typeNames with
    | none =>
      refine ⟨sampled.itself, sampled.named, ?_⟩
      rw [← sampled.same]
      simp [SchemaObject.sampleType?, SchemaObject.overlay, types]
    | some t =>
      have named := sampled.named t types
      refine ⟨sampled.itself, ?_, ?_⟩
      · rintro t' is
        obtain rfl := Option.some.inj is
        rw [first?_withNull named]
        exact named
      · rw [← sampled.same]
        simp [SchemaObject.sampleType?, SchemaObject.overlay, types, first?_withNull named]

lemma inferred (seen : Option Primitive) : Sampled (.inferred seen) (.inferred seen) := by
  cases seen with
  | none => exact .untyped rfl rfl rfl
  | some p =>
    refine .typed rfl rfl ?_
    cases p <;> rfl

end Sampled

lemma TypeScript.sampleType?_annotate (notes : Notes) (t : TypeExpr) :
    (annotate notes t).sampleType? = t.sampleType? := by
  rw [annotate]
  split
  · cases t <;> rfl
  · rfl

section Sampling

variable {setting : Setting} {style : OptionalStyle} {table : AliasTable SchemaObject}
  {table' : AliasTable TypeExpr}

/-- The views of a node that is sampled alike. The induction goes through the layers that show what
is inside; all others have one type of their own. -/
lemma sampled_of_replay {node : Node} {s : SchemaObject} {type : TypeExpr}
    (alike : node.sampledAlike style)
    (shown : Document.depicter.replay setting table (Document.walk .output node) = .ok s)
    (typed : (TypeScript.depicter style).replay setting table'
      (TypeScript.walk style node .output) = .ok type) : Sampled s type := by
  induction node using Node.induct generalizing s type with
  | step kind notes ih =>
    unfold TypeScript.walk at typed
    obtain ⟨view, drawn, annotated⟩ := Document.layer_of_replay shown
    obtain ⟨inner, layer, commented⟩ := replay_bind_ok typed
    obtain rfl := Except.ok.inj commented
    suffices sampled : Sampled view inner by
      have commented : Sampled view (annotate notes inner) :=
        ⟨sampled.itself, sampled.named, by rw [sampleType?_annotate]; exact sampled.same⟩
      rcases Document.replay_annotate annotated with rfl | ⟨null, description, examples, rfl⟩
      · exact commented
      · exact commented.overlay null description examples
    cases drawn with
    | literal | choice | union _ | taggedUnion _ | intersection _ _ | nullable _ | reference _ =>
      cases alike
    | @string checks =>
      obtain rfl := Except.ok.inj layer
      refine .typed rfl rfl ?_
      obtain ⟨least, most, format, pattern, coerce⟩ := checks
      have dateless : format ≠ some .dateTime := by simpa [Node.sampledAlike] using alike
      rcases format with _ | format
      · rfl
      · cases format <;> first | rfl | exact absurd rfl dateless
    | @number checks =>
      obtain rfl := Except.ok.inj layer
      refine .typed rfl rfl ?_
      obtain ⟨whole, least, most, above, below, coerce⟩ := checks
      cases whole <;> rfl
    | bigint | boolean | date | null =>
      obtain rfl := Except.ok.inj layer
      exact .typed rfl rfl rfl
    | any | unknown =>
      obtain rfl := Except.ok.inj layer
      exact .untyped rfl rfl rfl
    | array _ | object _ =>
      obtain ⟨_, -, layer⟩ := replay_bind_ok layer
      obtain rfl := Except.ok.inj layer
      exact .typed rfl rfl rfl
    | tuple _ =>
      obtain ⟨types, -, layer⟩ := replay_bind_ok layer
      obtain rfl := Except.ok.inj layer
      exact .typed rfl rfl rfl
    | longTuple _ _ | record _ _ | emptyRecord _ | listedRecord _ _ =>
      obtain ⟨_, -, layer⟩ := replay_bind_ok layer
      obtain ⟨_, -, layer⟩ := replay_bind_ok layer
      obtain rfl := Except.ok.inj layer
      exact .typed rfl rfl rfl
    | @optional inner _ part =>
      obtain ⟨plain, alike⟩ : style.orUndefined = false ∧ inner.sampledAlike style := by
        simpa [Node.sampledAlike] using alike
      obtain ⟨t, part', same⟩ := replay_bind_ok layer
      rw [plain] at same
      obtain rfl := Except.ok.inj same
      exact ih inner (List.mem_singleton_self _) alike part part'
    | readonly part | branded part | fallback part | preprocess part =>
      exact ih _ (List.mem_singleton_self _) alike part layer
    | default part =>
      have sampled := ih _ (List.mem_singleton_self _) alike part layer
      exact ⟨sampled.itself, sampled.named, sampled.same⟩
    | @pipeline _ output _ part =>
      exact ih output (by simp [Kind.children]) alike part layer
    | refine part =>
      obtain ⟨t', part', same⟩ := replay_bind_ok layer
      obtain rfl := Except.ok.inj same
      exact ih _ (List.mem_singleton_self _) alike part part'
    | untried part why =>
      obtain ⟨t', part', -⟩ := replay_bind_ok layer
      have sampled := ih _ (List.mem_singleton_self _) alike part part'
      rcases why with input | stands
      · cases input
      · rw [sampled.itself] at stands
        cases stands
    | tried _ part _ seen =>
      obtain ⟨t', part', same⟩ := replay_bind_ok layer
      have sampled := ih _ (List.mem_singleton_self _) alike part part'
      rw [Document.replay_transformed seen, TypeScript.replay_transformed same,
        setting.seen_congr _ sampled.same]
      exact .inferred _

end Sampling

namespace Node

/-- A node whose values are transformed. -/
abbrev transformed (node : Node) (t : Transform) : Node := .of (.effect node (.transform t))

end Node

lemma Document.walk_transformed (node : Node) (t : Transform) :
    depicter.walk (node.transformed t) .output = depicter.walk node .output >>= fun input =>
      (if input.isReference then pure input else transformed (node.transformed t) input) >>=
        annotate (node.transformed t) .output :=
  Walk.bind_assoc (walk .output node) _ _

lemma TypeScript.walk_transformed (style : OptionalStyle) (node : Node) (t : Transform) :
    (depicter style).walk (node.transformed t) .output =
      (depicter style).walk node .output >>= fun input =>
        transformed (node.transformed t) input >>= fun type => pure (annotate {} type) :=
  Walk.bind_assoc (walk style node .output) _ _

/-- Both views infer the same of a transformed value exactly when the input stands for no other
schema, both samples show the same, and null is not accepted where something is seen. Both samples
show the same of every input that both views have one type for. -/
theorem transform_outputs_inferred_alike (setting : Setting) (style : OptionalStyle) (node : Node)
    (t : Transform) {before after : AliasTable SchemaObject} {before' after' : AliasTable TypeExpr}
    {s : SchemaObject} {type : TypeExpr}
    (documented : Document.depict setting .output (node.transformed t) before = (.ok s, after))
    (typed : TypeScript.depict setting style .output (node.transformed t) before' =
      (.ok type, after')) :
    ∃ inner middle innerType middle',
      Document.depict setting .output node before = (.ok inner, middle) ∧
      TypeScript.depict setting style .output node before' = (.ok innerType, middle') ∧
      (SameInference type s ↔ inner.isReference = false ∧
        setting.seen (node.transformed t) inner.sampleType? =
          setting.seen (node.transformed t) innerType.sampleType? ∧
        (setting.seen (node.transformed t) inner.sampleType? ≠ none →
          setting.library.acceptsNull (node.transformed t) = .ok false)) ∧
      (node.sampledAlike style → (SameInference type s ↔
        (setting.seen (node.transformed t) inner.sampleType? ≠ none →
          setting.library.acceptsNull (node.transformed t) = .ok false))) := by
  obtain ⟨inner, middle, first, replayed, rest⟩ := Depicter.depict_first Document.uniform.unknown
    (Document.walk_transformed node t) documented
  obtain ⟨innerType, middle', first', replayed', rest'⟩ := Depicter.depict_first
    (TypeScript.uniform style).unknown (TypeScript.walk_transformed style node t) typed
  refine ⟨inner, middle, innerType, middle', first, first', ?_⟩
  obtain ⟨found, shown, same⟩ := replay_bind_ok rest'
  obtain rfl : found = type := Except.ok.inj same
  obtain rfl := TypeScript.replay_transformed shown
  obtain ⟨view, layer, annotated⟩ := replay_bind_ok rest
  have exactly : SameInference
      (.inferred (setting.seen (node.transformed t) innerType.sampleType?)) s ↔
        inner.isReference = false ∧
        setting.seen (node.transformed t) inner.sampleType? =
          setting.seen (node.transformed t) innerType.sampleType? ∧
        (setting.seen (node.transformed t) inner.sampleType? ≠ none →
          setting.library.acceptsNull (node.transformed t) = .ok false) := by
    cases itself : inner.isReference with
    | true =>
      rw [if_pos itself] at layer
      obtain rfl := Except.ok.inj layer
      rw [Document.replay_annotate_reference itself annotated]
      refine iff_of_false (not_sameInference ?_ ?_) (by simp)
      · intro is
        rw [is] at itself
        cases itself
      · intro p is
        rw [is] at itself
        cases itself
    | false =>
      rw [if_neg (by rw [itself]; exact Bool.false_ne_true)] at layer
      obtain rfl := Document.replay_transformed layer
      have single : (SchemaObject.inferred
          (setting.seen (node.transformed t) inner.sampleType?)).isReference = false := by
        cases setting.seen (node.transformed t) inner.sampleType? <;> rfl
      obtain ⟨null, examples, accepts, none, rfl⟩ :=
        Document.replay_annotate_accepts single rfl annotated
      obtain rfl := Except.ok.inj none
      rw [accepts]
      refine sameInference_labelled_iff.trans ?_
      simp
  refine ⟨exactly, fun alike => exactly.trans ?_⟩
  have sampled := sampled_of_replay alike replayed replayed'
  exact ⟨fun ⟨_, _, free⟩ => free, fun free =>
    ⟨sampled.itself, setting.seen_congr _ sampled.same, free⟩⟩

/-- Guests of an event, of which there are as many as the list is long. -/
def guests : Node :=
  (Node.of (.default (.of (.array (.of (.string { maxLength := some 40 })) none (some 9)))
    (.array []))).described "those who come"

def guestListSetting : Setting where
  library := {}
  fingerprint node := node.kindName

theorem guest_count_inferred_alike :
    ∃ s table type table',
      Document.depict guestListSetting .output (guests.transformed .length) Document.noComponents =
        (.ok s, table) ∧
      TypeScript.depict guestListSetting {} .output (guests.transformed .length)
        TypeScript.noAliases = (.ok type, table') ∧
      SameInference type s := by
  have documented : Document.depict guestListSetting .output (guests.transformed .length)
      Document.noComponents = (.ok (.ofType "number"), Document.noComponents) := rfl
  have typed : TypeScript.depict guestListSetting {} .output (guests.transformed .length)
      TypeScript.noAliases = (.ok (.keyword .number), TypeScript.noAliases) := rfl
  refine ⟨_, _, _, _, documented, typed, ?_⟩
  obtain ⟨inner, middle, innerType, middle', -, -, -, alike⟩ :=
    transform_outputs_inferred_alike guestListSetting {} guests .length documented typed
  exact (alike rfl).mpr fun _ => rfl

/-- The length of a name that may be null is a number in the documented view, where the sample is
one of the first type, and nothing is known of it in the typed view, where the input is a union. -/
theorem nullable_length_inferred_apart :
    ∃ s table type table',
      Document.depict guestListSetting .output
        ((Node.of (.nullable (.of (.string {})))).transformed .length) Document.noComponents =
        (.ok s, table) ∧
      TypeScript.depict guestListSetting {} .output
        ((Node.of (.nullable (.of (.string {})))).transformed .length) TypeScript.noAliases =
        (.ok type, table') ∧
      ¬ SameInference type s := by
  refine ⟨.inferred (some .number), _, .inferred none, _, rfl, rfl, ?_⟩
  rw [sameInference_inferred_iff]
  exact Option.some_ne_none _

end EventContracts
