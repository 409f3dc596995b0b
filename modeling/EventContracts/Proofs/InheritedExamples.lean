import EventContracts.Proofs.AcceptedNulls
import EventContracts.Proofs.InputSoundness

/-! Where the examples in the documented view of input come from. A node shows the examples that it
declares, when it accepts one of them, and else those of the view that it takes over. They are
tested where they are declared and nowhere else, so a node can show what it refuses: when it is of
a kind that refuses what another one has accepted, or only wraps such a node. -/

namespace EventContracts

open Depicter

/-- The node whose view of input a layer takes over, with its examples. -/
def Kind.shows? {α : Type} : Kind α → Option α
  | optional inner => some inner
  | nullable inner => some inner
  | default inner _ => some inner
  | fallback inner _ => some inner
  | branded inner _ => some inner
  | readonly inner => some inner
  | effect inner _ => some inner
  | preprocess inner _ => some inner
  | pipeline input _ => some input
  | _ => none

/-- Whether a layer can refuse an example that it has taken over. A fallback does so only when a
validation is interrupted. -/
def Kind.tests {α : Type} : Kind α → Bool
  | fallback .. => true
  | effect .. => true
  | preprocess .. => true
  | pipeline .. => true
  | intersection .. => true
  | _ => false

namespace Node

/-- The node that decides whether an example is accepted: a wrapper leaves it to what is inside. -/
def decider (sample : Json) : Node → Node
  | mk kind notes => match kind with
    | .optional inner => decider sample inner
    | .nullable inner => if sample.isNull then mk (.nullable inner) notes else decider sample inner
    | .default inner _ => decider sample inner
    | .branded inner _ => decider sample inner
    | .readonly inner => decider sample inner
    | kind => mk kind notes
termination_by structural node => node

/-- Whether a node can give an example to the documented view of input. It declares and accepts it,
or takes it over; and an intersection can merge an example of either side. -/
inductive Gives (library : Library) : Node → Json → Prop where
  | declared {node : Node} {sample : Json} (mem : sample ∈ node.notes.examples)
      (takes : library.Takes node sample) : Gives library node sample
  | taken {kind : Kind Node} {notes : Notes} {inner : Node} {sample : Json}
      (is : kind.shows? = some inner) (gives : inner.Gives library sample) :
      Gives library (.mk kind notes) sample
  | left {left right : Node} {notes : Notes} {sample : Json} (gives : left.Gives library sample) :
      Gives library (.mk (.intersection left right) notes) sample
  | right {left right : Node} {notes : Notes} {sample : Json} (gives : right.Gives library sample) :
      Gives library (.mk (.intersection left right) notes) sample
  | merged {left right : Node} {notes : Notes} {a b : Fields Json}
      (first : left.Gives library (.object a)) (second : right.Gives library (.object b)) :
      Gives library (.mk (.intersection left right) notes) (.object (Fields.merge a b))

variable {library : Library} {sample : Json}

/-- A wrapper accepts what is inside accepts, and null if it allows it. -/
lemma takes_wrapper {kind : Kind Node} {notes : Notes} {inner : Node}
    (is : kind.shows? = some inner) (wraps : kind.tests = false)
    (other : ∀ inside, kind = .nullable inside → sample.isNull = false) :
    library.Takes (mk kind notes) sample ↔ library.Takes inner sample := by
  rw [Library.takes_iff, Library.takes_iff]
  cases kind with
  | optional inside | default inside _ | branded inside _ | readonly inside =>
    obtain rfl := Option.some.inj is
    rfl
  | nullable inside =>
    obtain rfl := Option.some.inj is
    have present := other _ rfl
    cases sample with
    | null => cases present
    | _ => rfl
  | fallback | effect | preprocess | pipeline => cases wraps
  | _ => cases is

lemma takes_nullable (inner : Node) (notes : Notes) :
    library.Takes (mk (.nullable inner) notes) .null := by
  rw [Library.takes_iff]
  exact ⟨some .null, rfl⟩

/-- What the deciding node accepts is what the node accepts. -/
lemma takes_decider (node : Node) :
    library.Takes (node.decider sample) sample ↔ library.Takes node sample := by
  induction node using Node.induct with
  | step kind notes ih =>
    cases kind with
    | optional inner | default inner _ | branded inner _ | readonly inner =>
      refine (ih inner (List.mem_singleton_self _)).trans (takes_wrapper rfl rfl ?_).symm
      rintro _ ⟨⟩
    | nullable inner =>
      cases null : sample.isNull with
      | true => rw [decider, if_pos null]
      | false =>
        rw [decider, if_neg (by rw [null]; exact Bool.false_ne_true)]
        exact (ih inner (List.mem_singleton_self _)).trans
          (takes_wrapper rfl rfl fun _ _ => null).symm
    | _ => rfl

/-- Whether an example that is shown is given by its node, and refused only if the node that decides
about it can refuse what it has taken over, and declares nothing that it accepts. -/
structure Backs (library : Library) (node : Node) (sample : Json) : Prop where
  gives : node.Gives library sample
  refused : ¬ library.Takes node sample → (node.decider sample).kind.tests = true ∧
    ∀ own ∈ (node.decider sample).notes.examples, ¬ library.Takes (node.decider sample) own

namespace Backs

lemma declared {node : Node} (mem : sample ∈ node.notes.examples)
    (takes : library.Takes node sample) : node.Backs library sample :=
  ⟨.declared mem takes, fun refuses => absurd takes refuses⟩

/-- An example of a layer that declares nothing that it accepts. -/
lemma tested {kind : Kind Node} {notes : Notes} (tests : kind.tests = true)
    (gives : (Node.mk kind notes).Gives library sample)
    (none : ∀ own ∈ notes.examples, ¬ library.Takes (Node.mk kind notes) own) :
    (Node.mk kind notes).Backs library sample := by
  have itself : (Node.mk kind notes).decider sample = .mk kind notes := by
    cases kind with
    | fallback | effect | preprocess | pipeline | intersection => rfl
    | _ => cases tests
  refine ⟨gives, fun _ => ?_⟩
  rw [itself]
  exact ⟨tests, none⟩

lemma taken {kind : Kind Node} {notes : Notes} {inner : Node} (is : kind.shows? = some inner)
    (inside : inner.Backs library sample)
    (none : ∀ own ∈ notes.examples, ¬ library.Takes (Node.mk kind notes) own) :
    (Node.mk kind notes).Backs library sample := by
  have gives : (Node.mk kind notes).Gives library sample := .taken is inside.gives
  cases tests : kind.tests with
  | true => exact .tested tests gives none
  | false =>
    refine ⟨gives, fun refuses => ?_⟩
    have other (inside : Node) (same : kind = .nullable inside) : sample.isNull = false := by
      rw [Bool.eq_false_iff]
      intro null
      rw [same, Json.isNull_iff.mp null] at refuses
      exact refuses (takes_nullable inside notes)
    have leaves : (Node.mk kind notes).decider sample = inner.decider sample := by
      cases kind with
      | optional inside' | default inside' _ | branded inside' _ | readonly inside' =>
        obtain rfl := Option.some.inj is
        rfl
      | nullable inside' =>
        obtain rfl := Option.some.inj is
        exact if_neg (by rw [other _ rfl]; exact Bool.false_ne_true)
      | fallback | effect | preprocess | pipeline => cases tests
      | _ => cases is
    rw [leaves]
    exact inside.refused fun takes => refuses ((takes_wrapper is tests other).mpr takes)

end Backs

end Node

namespace SchemaObject

lemma mem_combineExamples {left right : List Json} {sample : Json}
    (h : sample ∈ combineExamples left right) : sample ∈ left ∨ sample ∈ right ∨
      ∃ a b, .object a ∈ left ∧ .object b ∈ right ∧ sample = .object (Fields.merge a b) := by
  unfold combineExamples at h
  split at h
  · exact .inr (.inl h)
  · split at h
    · exact .inl h
    · obtain ⟨l, fromLeft, h⟩ := List.mem_flatMap.mp h
      obtain ⟨r, fromRight, h⟩ := List.mem_filterMap.mp h
      split at h
      · obtain rfl := Option.some.inj h
        exact .inr (.inr ⟨_, _, fromLeft, fromRight, rfl⟩)
      · cases h

/-- The sides of an intersection give its examples when they are put together as one object. -/
lemma mem_examples_intersect {left right : SchemaObject} {sample : Json}
    (h : sample ∈ (left.intersect right).examples.getD []) :
    sample ∈ left.examples.getD [] ∨ sample ∈ right.examples.getD [] ∨
      ∃ a b, .object a ∈ left.examples.getD [] ∧ .object b ∈ right.examples.getD [] ∧
        sample = .object (Fields.merge a b) := by
  cases flat : flatten? left right with
  | none =>
    rw [intersect, flat] at h
    cases h
  | some whole =>
    obtain ⟨-, -, _, -, rfl⟩ := flatten?_eq flat
    rw [intersect, flat] at h
    dsimp only [Option.getD_some] at h
    split at h
    · exact mem_combineExamples h
    · cases h

lemma examples_orNull (s : SchemaObject) :
    s.orNull.examples = none ∨ s.orNull.examples = s.examples := by
  unfold orNull
  split
  · exact .inr rfl
  · split
    · exact .inr rfl
    · exact .inl rfl

lemma examples_preprocessed (s : SchemaObject) : s.preprocessed.examples = s.examples := by
  unfold preprocessed
  split <;> rfl

lemma isReference_preprocessed (s : SchemaObject) :
    s.preprocessed.isReference = s.isReference := by
  unfold preprocessed
  split <;> rfl

lemma isReference_intersect (left right : SchemaObject) :
    (left.intersect right).isReference = false := by
  rw [intersect]
  cases flat : flatten? left right with
  | none => rfl
  | some whole =>
    obtain ⟨-, -, _, -, rfl⟩ := flatten?_eq flat
    rfl

end SchemaObject

namespace Document

open SchemaObject

variable {setting : Setting} {table : AliasTable SchemaObject} {node : Node} {s view : SchemaObject}

lemma mem_of_validExamples {samples shown : List Json}
    (h : depicter.replay setting table (validExamples node .input samples) = .ok shown)
    {sample : Json} : sample ∈ shown ↔ sample ∈ samples ∧ setting.library.Takes node sample := by
  induction samples generalizing shown with
  | nil =>
    obtain rfl := Except.ok.inj h
    exact ⟨nofun, fun found => nomatch found.1⟩
  | cons first samples ih =>
    obtain ⟨outcome, asked, h⟩ := replay_bind_ok h
    obtain ⟨here, checked, h⟩ := replay_bind_ok h
    obtain ⟨more, rest, h⟩ := replay_bind_ok h
    obtain rfl := Except.ok.inj h
    have asked : setting.library.validate node (some first) = outcome := Except.ok.inj asked
    change depicter.replay setting table (Walk.check (Document.shown .input first outcome)) =
      .ok here at checked
    have shows : sample ∈ here ↔ sample = first ∧ setting.library.Takes node sample := by
      cases outcome with
      | error cause =>
        cases cause with
        | invalid issue =>
          obtain rfl := Except.ok.inj checked
          refine ⟨nofun, ?_⟩
          rintro ⟨rfl, made, accepted⟩
          cases asked.symm.trans accepted
        | interrupted cause => cases checked
      | ok result =>
        obtain rfl := Except.ok.inj checked
        refine List.mem_singleton.trans ⟨?_, And.left⟩
        rintro rfl
        exact ⟨rfl, result, asked⟩
    rw [List.mem_append, List.mem_cons, shows, ih rest, or_and_right]

variable (setting) in
/-- Whether the examples of a view are those of a node, when what stands for another schema has
none. -/
structure ExamplesOf (node : Node) (s : SchemaObject) : Prop where
  reference : s.isReference = true → s.examples = none
  each : ∀ sample ∈ s.examples.getD [], node.Backs setting.library sample

variable (setting) in
/-- The same of the view of a layer, which is shown when the node declares nothing that it
accepts. -/
structure LayerExamples (node : Node) (view : SchemaObject) : Prop where
  reference : view.isReference = true → view.examples = none
  each : (∀ own ∈ node.notes.examples, ¬ setting.library.Takes node own) →
    ∀ sample ∈ view.examples.getD [], node.Backs setting.library sample

namespace LayerExamples

/-- The examples that a node accepts are laid over those of its layer. -/
lemma annotated (layer : LayerExamples setting node view)
    (h : depicter.replay setting table (annotate node .input view) = .ok s) :
    ExamplesOf setting node s := by
  cases stands : view.isReference with
  | true =>
    rw [replay_annotate_reference stands h]
    refine ⟨layer.reference, fun sample mem => ?_⟩
    rw [layer.reference stands] at mem
    cases mem
  | false =>
    obtain ⟨null, examples, -, shown, rfl⟩ := replay_annotate_accepts stands rfl h
    have itself : (view.overlay {
        description := node.notes.description
        typeNames := if null then view.typeNames.map TypeNames.withNull else none
        examples := if examples.isEmpty then none else some examples }).isReference = false :=
      stands
    refine ⟨fun is => absurd (itself.symm.trans is) Bool.false_ne_true, fun sample mem => ?_⟩
    have own {sample : Json} : sample ∈ examples ↔ sample ∈ node.notes.examples ∧
        setting.library.Takes node sample := mem_of_validExamples shown
    cases examples with
    | nil =>
      refine layer.each (fun sample mem takes => ?_) sample mem
      exact List.not_mem_nil (own.mpr ⟨mem, takes⟩)
    | cons first more =>
      obtain ⟨declared, takes⟩ := own.mp mem
      exact .declared declared takes

/-- A layer without examples. -/
lemma plain (none : view.examples = none) : LayerExamples setting node view := by
  refine ⟨fun _ => none, fun _ sample mem => ?_⟩
  rw [none] at mem
  cases mem

/-- A layer that takes over the examples of another view, if any. -/
lemma taken {kind : Kind Node} {notes : Notes} {inner : Node} (is : kind.shows? = some inner)
    (inside : ExamplesOf setting inner s)
    (reference : view.isReference = true → s.isReference = true)
    (same : view.examples = none ∨ view.examples = s.examples) :
    LayerExamples setting (.mk kind notes) view := by
  rcases same with none | same
  · exact .plain none
  · refine ⟨fun stands => ?_, fun none sample mem => ?_⟩
    · rw [same]
      exact inside.reference (reference stands)
    · rw [same] at mem
      exact .taken is (inside.each sample mem) none

lemma intersect {left right : Node} {notes : Notes} {l r : SchemaObject}
    (fromLeft : ExamplesOf setting left l) (fromRight : ExamplesOf setting right r) :
    LayerExamples setting (.mk (.intersection left right) notes) (l.intersect r) := by
  refine ⟨fun stands => ?_, fun none sample mem => .tested rfl ?_ none⟩
  · rw [isReference_intersect] at stands
    cases stands
  · rcases mem_examples_intersect mem with mem | mem | ⟨a, b, first, second, rfl⟩
    · exact .left (fromLeft.each sample mem).gives
    · exact .right (fromRight.each sample mem).gives
    · exact .merged (fromLeft.each _ first).gives (fromRight.each _ second).gives

end LayerExamples

/-- The examples in the view of a node. The induction goes through the layers whose views are taken
over. -/
lemma examplesOf_of_replay {node : Node} {s : SchemaObject}
    (h : depicter.replay setting table (walk .input node) = .ok s) :
    ExamplesOf setting node s := by
  induction node using Node.induct generalizing s with
  | step kind notes ih =>
    obtain ⟨view, layer, annotated⟩ := layer_of_replay h
    refine LayerExamples.annotated ?_ annotated
    have child {node : Node} {t : SchemaObject} (mem : node ∈ kind.children)
        (shown : Viewed setting table .input node t) : ExamplesOf setting node t :=
      ih node mem shown
    cases layer with
    | string | number | bigint | boolean | date | null | any | unknown | literal | choice | array _
    | tuple _ | longTuple _ _ | object _ | record _ _ | emptyRecord _ | listedRecord _ _ | union _
    | taggedUnion _ | reference _ => exact .plain rfl
    | intersection fromLeft fromRight =>
      exact .intersect (child (by simp [Kind.children]) fromLeft)
        (child (by simp [Kind.children]) fromRight)
    | optional shown | readonly shown | branded shown | fallback shown | default shown
    | refine shown | untried shown _ =>
      exact .taken rfl (child (List.mem_singleton_self _) shown) id (.inr rfl)
    | pipeline shown => exact .taken rfl (child List.mem_cons_self shown) id (.inr rfl)
    | tried out _ _ _ => cases out
    | @nullable _ t shown =>
      refine .taken rfl (child (List.mem_singleton_self _) shown) ?_ (examples_orNull t)
      rw [isReference_orNull]
      exact id
    | @preprocess _ _ t shown =>
      refine .taken rfl (child (List.mem_singleton_self _) shown) ?_
        (.inr (examples_preprocessed t))
      change t.preprocessed.isReference = true → t.isReference = true
      rw [isReference_preprocessed]
      exact id

end Document

/-- Where a documented example of input comes from, and when its node refuses it. Every example is
declared by a node that accepts it, or put together from such examples by an intersection. It is
refused exactly when the node that decides about it refuses it, and this is a node that can refuse
what it has taken over and declares no example that it accepts. -/
theorem examples_are_tested_where_declared (setting : Setting) {node : Node} {s : SchemaObject}
    {table later : AliasTable SchemaObject}
    (depicted : Document.depict setting .input node table = (.ok s, later)) {sample : Json}
    (mem : sample ∈ s.examples.getD []) :
    node.Gives setting.library sample ∧
      (¬ setting.library.Takes node sample ↔
        (node.decider sample).kind.tests = true ∧
        (∀ own ∈ (node.decider sample).notes.examples,
          ¬ setting.library.Takes (node.decider sample) own) ∧
        ¬ setting.library.Takes (node.decider sample) sample) := by
  have drawn := replay_of_depict Document.uniform.unknown depicted
  obtain ⟨gives, refused⟩ := (Document.examplesOf_of_replay drawn).each sample mem
  refine ⟨gives, ?_⟩
  rw [Node.takes_decider]
  constructor
  · intro refuses
    obtain ⟨tests, none⟩ := refused refuses
    exact ⟨tests, none, refuses⟩
  · rintro ⟨-, -, refuses⟩
    exact refuses

/-- A word that must not be empty, with examples for a word of any length. -/
def wordNode : Node :=
  .of (.optional (.of (.effect (.mk (.string {}) { examples := [.string "", .string "oak"] })
    (.refine .nonEmpty))))

def wordSetting : Setting where
  library := {}
  fingerprint node := node.kindName

theorem word_examples_are_tested_where_declared :
    ∃ s table, Document.depict wordSetting .input wordNode Document.noComponents = (.ok s, table) ∧
      s.examples.getD [] = [.string "", .string "oak"] ∧
      ¬ wordSetting.library.Takes wordNode (.string "") ∧
      wordNode.Gives wordSetting.library (.string "oak") := by
  obtain ⟨s, table, depicted, shown⟩ : ∃ s table, Document.depict wordSetting .input wordNode
      Document.noComponents = (.ok s, table) ∧
        s.examples.getD [] = [.string "", .string "oak"] :=
    ⟨_, _, rfl, rfl⟩
  have each {sample : Json} (mem : sample ∈ s.examples.getD []) :=
    examples_are_tested_where_declared wordSetting depicted mem
  rw [shown] at each
  refine ⟨s, table, depicted, shown, (each (.head _)).2.mpr ⟨rfl, nofun, ?_⟩,
    (each (.tail _ (.head _))).1⟩
  rintro ⟨made, accepted⟩
  cases accepted

/-- Two sides of an object, of which only one has an example. -/
def pairNode : Node :=
  .of (.intersection
    (.mk (.object [("left", .of (.string {}))]) { examples := [.object [("left", .string "oak")]] })
    (.of (.object [("right", .of (.string {}))])))

/-- A refinement and an intersection refuse the examples that they show. -/
theorem refused_examples_are_shown :
    (∃ s table, Document.depict wordSetting .input wordNode Document.noComponents =
        (.ok s, table) ∧
      .string "" ∈ s.examples.getD [] ∧ ¬ wordSetting.library.Takes wordNode (.string "")) ∧
    ∃ s table, Document.depict wordSetting .input pairNode Document.noComponents =
        (.ok s, table) ∧
      .object [("left", .string "oak")] ∈ s.examples.getD [] ∧
      ¬ wordSetting.library.Takes pairNode (.object [("left", .string "oak")]) := by
  refine ⟨⟨_, _, rfl, .head _, ?_⟩, _, _, rfl, .head _, ?_⟩
  · rintro ⟨made, accepted⟩
    cases accepted
  · rintro ⟨made, accepted⟩
    cases accepted

end EventContracts
