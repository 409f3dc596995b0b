import EventContracts.Proofs.CanonicalForms

/-! Every schema has a canonical form, whatever the definitions say of one another: the description
of a reference holds that of its target if and only if its key is not open, and then the key is open
in it. So a key is opened once at most on any way from the root, and is closed again beside that
way. -/

namespace EventContracts

namespace Json

/-- The description of one child under a name. -/
def oneForm (form : Json) (name : String) : List Json := (form.field? name).toList

/-- The descriptions of several children under a name. -/
def allForms (form : Json) (name : String) : List Json := ((form.field? name).map parts).getD []

/-- The descriptions of children in a description. A value is described beside a key only, and is
data elsewhere; a rest that is null describes nothing. -/
def childForms (form : Json) : List Json :=
  (if (form.field? "key").isSome then ["key", "value"]
    else ["item", "inner", "left", "right", "input", "output", "args", "returns"]).flatMap
      form.oneForm ++
    ["items", "shape", "options"].flatMap form.allForms ++
    match form.field? "rest" with
      | some .null => []
      | rest => rest.toList

@[simp] lemma field?_object (name : String) (fields : Fields Json) :
    (object fields).field? name = Fields.get? name fields := rfl

/-- The descriptions in a canonical form, with the keys that are open where they stand: a child
stands where its parent does, and a target behind the key of its reference. -/
inductive Holds (form : Json) : List String → Json → Prop where
  | root : Holds form [] form
  | child {keys : List String} {part inner : Json} (inside : Holds form keys part)
      (mem : inner ∈ part.childForms) : Holds form keys inner
  | target {keys : List String} {part : Json} {key : String} {inner : Json}
      (inside : Holds form keys part) (named : part.field? "ref" = some (.string key))
      (written : part.field? "target" = some inner) : Holds form (key :: keys) inner

end Json

/-- The key of a layer that is a reference. -/
def Kind.key? {α : Type} : Kind α → Option String
  | reference key _ => some key
  | _ => none

/-- Whether a value describes a node on whose way some keys are open: it has the word for the kind
and the descriptions of the children, and the key of a reference with the description of its target,
unless the key is open. -/
inductive Definitions.Describes (definitions : Definitions) :
    List String → Node → Json → Prop where
  | mk {opened : List String} {kind : Kind Node} {notes : Notes} {form : Json}
      (word : form.field? "kind" = some (.string kind.name))
      (count : kind.children.length = form.childForms.length)
      (children : ∀ pair ∈ kind.children.zip form.childForms,
        Describes definitions opened pair.1 pair.2)
      (named : form.field? "ref" = kind.key?.map Json.string)
      (closed : ∀ key target, kind = .reference key target →
        (form.field? "target" = none ↔ key ∈ opened))
      (followed : ∀ key target inner, kind = .reference key target →
        form.field? "target" = some inner →
          Describes definitions (key :: opened) (definitions.resolve target) inner) :
      Describes definitions opened (.mk kind notes) form

namespace Node

variable {target? : String → String → Option (Option Json)} {form : Json}

lemma field?_form {name : String} (node : Node) (fields : Fields Json) (kind : name ≠ "kind")
    (description : name ≠ "description") (examples : name ≠ "examples") :
    (node.form fields).field? name = Fields.get? name fields := by
  change Fields.get? name (("kind", .string node.kindName) :: (fields ++ noteFields node.notes)) = _
  rw [Fields.get?, if_neg kind.symm, Fields.get?_append,
    FormPart.get?_noteFields node.notes description examples, Option.or_none]

lemma describeItems_forms {nodes : List Node} {forms : List Json}
    (h : describeItems target? nodes = some forms) :
    List.Forall₂ (fun node form => describeWith target? node = some form) nodes forms := by
  induction nodes generalizing forms with
  | nil =>
    obtain rfl := Option.some.inj h
    exact .nil
  | cons node nodes ih =>
    obtain ⟨first, made, h⟩ := Option.bind_eq_some_iff.mp h
    obtain ⟨more, rest, h⟩ := Option.bind_eq_some_iff.mp h
    obtain rfl := Option.some.inj h
    exact .cons made (ih rest)

lemma describeShape_forms {shape : List (String × Node)} {forms : List (String × Json)}
    (h : describeShape target? shape = some forms) :
    List.Forall₂ (fun node form => describeWith target? node = some form)
      (shape.map Prod.snd) (forms.map Prod.snd) := by
  induction shape generalizing forms with
  | nil =>
    obtain rfl := Option.some.inj h
    exact .nil
  | cons field shape ih =>
    obtain ⟨first, made, h⟩ := Option.bind_eq_some_iff.mp h
    obtain ⟨more, rest, h⟩ := Option.bind_eq_some_iff.mp h
    obtain rfl := Option.some.inj h
    exact .cons made (ih rest)

lemma childForms_form (node : Node) (fields : Fields Json) :
    (node.form fields).childForms = (Json.object fields).childForms := by
  by_cases keyed : (Fields.get? "key" fields).isSome
  · simp [Json.childForms, Json.oneForm, Json.allForms, field?_form, keyed]
  · simp [Json.childForms, Json.oneForm, Json.allForms, field?_form, keyed]

/-- What the description of a layer holds: the word for the kind, the descriptions of the children,
and for a reference its key and what is written for its target. -/
structure LayerForm (target? : String → String → Option (Option Json)) (kind : Kind Node)
    (form : Json) : Prop where
  word : form.field? "kind" = some (.string kind.name)
  children : List.Forall₂ (fun child inner => describeWith target? child = some inner)
    kind.children form.childForms
  named : form.field? "ref" = kind.key?.map Json.string
  written : ∀ key target, kind = .reference key target →
    target? key target = some (form.field? "target")

/-- The description of a layer that is no reference. -/
lemma LayerForm.of {kind : Kind Node} {notes : Notes} {fields : Fields Json} {forms : List Json}
    (each : List.Forall₂ (fun child inner => describeWith target? child = some inner)
      kind.children forms)
    (same : (Json.object fields).childForms = forms) (unnamed : kind.key? = none)
    (absent : Fields.get? "ref" fields = none) :
    LayerForm target? kind ((Node.mk kind notes).form fields) where
  word := rfl
  children := by rwa [childForms_form, same]
  named := by rw [field?_form _ _ (by decide) (by decide) (by decide), unnamed, absent]; rfl
  written := by
    rintro key target rfl
    cases unnamed

lemma layerForm_of {kind : Kind Node} {notes : Notes}
    (child : ∀ node ∈ kind.children, ∀ inner, describeWith target? node = some inner →
      inner ≠ .null)
    (h : describeWith target? (.mk kind notes) = some form) : LayerForm target? kind form := by
  unfold describeWith at h
  cases kind with
  | array item _ _ =>
    obtain ⟨first, made, h⟩ := Option.bind_eq_some_iff.mp h
    obtain rfl := Option.some.inj h
    exact .of (.cons made .nil)
      (by simp [Json.childForms, Json.oneForm, Json.allForms, Fields.get?]) rfl rfl
  | optional inner | nullable inner | readonly inner | default inner _ | fallback inner _
  | branded inner _ | effect inner _ | preprocess inner _ =>
    obtain ⟨first, made, h⟩ := Option.bind_eq_some_iff.mp h
    obtain rfl := Option.some.inj h
    exact .of (.cons made .nil)
      (by simp [Json.childForms, Json.oneForm, Json.allForms, Fields.get?]) rfl rfl
  | record left right | intersection left right | pipeline left right | function left right =>
    obtain ⟨first, made, h⟩ := Option.bind_eq_some_iff.mp h
    obtain ⟨second, further, h⟩ := Option.bind_eq_some_iff.mp h
    obtain rfl := Option.some.inj h
    exact .of (.cons made (.cons further .nil))
      (by simp [Json.childForms, Json.oneForm, Json.allForms, Fields.get?]) rfl rfl
  | object shape =>
    obtain ⟨forms, made, h⟩ := Option.bind_eq_some_iff.mp h
    obtain rfl := Option.some.inj h
    exact .of (describeShape_forms made)
      (by simp [Json.childForms, Json.oneForm, Json.allForms, Fields.get?, Json.parts]) rfl rfl
  | union options | taggedUnion _ options =>
    obtain ⟨forms, made, h⟩ := Option.bind_eq_some_iff.mp h
    obtain rfl := Option.some.inj h
    exact .of (describeItems_forms made)
      (by simp [Json.childForms, Json.oneForm, Json.allForms, Fields.get?, Json.parts]) rfl rfl
  | tuple items rest =>
    obtain ⟨forms, made, h⟩ := Option.bind_eq_some_iff.mp h
    cases rest with
    | none =>
      obtain rfl := Option.some.inj h
      refine .of (by simpa [Kind.children] using describeItems_forms made) ?_ rfl rfl
      simp [Json.childForms, Json.oneForm, Json.allForms, Fields.get?, Json.parts]
    | some rest =>
      obtain ⟨last, further, h⟩ := Option.bind_eq_some_iff.mp h
      obtain rfl := Option.some.inj h
      have there := child rest (by simp [Kind.children]) last further
      refine .of (List.rel_append (describeItems_forms made) (.cons further .nil)) ?_ rfl rfl
      cases last with
      | null => exact absurd rfl there
      | _ => simp [Json.childForms, Json.oneForm, Json.allForms, Fields.get?, Json.parts]
  | reference key target =>
    obtain ⟨written, answered, h⟩ := Option.bind_eq_some_iff.mp h
    obtain rfl := Option.some.inj h
    refine ⟨rfl, ?_, ?_, ?_⟩
    · rw [childForms_form]
      cases written <;>
        simp [Json.childForms, Json.oneForm, Json.allForms, Fields.get?, Kind.children]
    · rw [field?_form _ _ (by decide) (by decide) (by decide)]
      rfl
    · intro other name same
      obtain ⟨rfl, rfl⟩ := Kind.reference.inj same
      rw [field?_form _ _ (by decide) (by decide) (by decide), answered]
      cases written <;> rfl
  | _ =>
    obtain rfl := Option.some.inj h
    exact .of .nil (by simp [Json.childForms, Json.oneForm, Json.allForms, Fields.get?]) rfl rfl

lemma layerForm {node : Node} (h : describeWith target? node = some form) :
    LayerForm target? node.kind form := by
  induction node using Node.induct generalizing form with
  | step kind notes ih =>
    refine layerForm_of (fun node mem inner made => ?_) h
    rintro rfl
    have word := (ih node mem made).word
    cases word

variable {definitions : Definitions}

lemma describes_of {opened : List String}
    (answers : ∀ key target written, target? key target = some written →
      (written = none ↔ key ∈ opened) ∧ ∀ inner, written = some inner →
        definitions.Describes (key :: opened) (definitions.resolve target) inner)
    {node : Node} (h : describeWith target? node = some form) :
    definitions.Describes opened node form := by
  induction node using Node.induct generalizing form with
  | step kind notes ih =>
    obtain ⟨word, children, named, written⟩ := layerForm h
    obtain ⟨count, each⟩ := List.forall₂_iff_zip.mp children
    refine .mk word count ?_ named ?_ ?_
    · intro pair mem
      exact ih pair.1 (List.of_mem_zip mem).1 (each mem)
    · intro key target same
      exact (answers key target _ (written key target same)).1
    · intro key target inner same found
      exact (answers key target _ (written key target same)).2 inner found

/-- The induction on the depth: what is written for a target is its description one level below,
with one more key that is open. -/
lemma describes_describe {depth : Nat} {opened : List String} {node : Node}
    (h : node.describe definitions depth opened = some form) :
    definitions.Describes opened node form := by
  induction depth generalizing opened node form with
  | zero =>
    refine describes_of ?_ h
    intro key target written answered
    split at answered
    · rename_i mem
      obtain rfl := Option.some.inj answered
      exact ⟨iff_of_true rfl mem, nofun⟩
    · cases answered
  | succ depth ih =>
    refine describes_of ?_ h
    intro key target written answered
    split at answered
    · rename_i mem
      obtain rfl := Option.some.inj answered
      exact ⟨iff_of_true rfl mem, nofun⟩
    · rename_i unopened
      obtain ⟨inner, made, same⟩ := Option.map_eq_some_iff.mp answered
      obtain rfl := same
      refine ⟨iff_of_false nofun unopened, ?_⟩
      rintro _ ⟨⟩
      exact ih made

end Node

namespace Definitions.Describes

variable {definitions : Definitions} {opened : List String} {node : Node} {form : Json}

/-- A description with a key is that of a reference. -/
lemma reference (describes : definitions.Describes opened node form) {key : String}
    (named : form.field? "ref" = some (.string key)) :
    (form.field? "target" = none ↔ key ∈ opened) ∧ ∀ inner, form.field? "target" = some inner →
      ∃ target, definitions.Describes (key :: opened) (definitions.resolve target) inner := by
  obtain ⟨-, -, -, written, closed, followed⟩ := describes
  rename_i kind _
  rw [named] at written
  cases kind with
  | reference other target =>
    obtain rfl := Json.string.inj (Option.some.inj written)
    exact ⟨closed key target rfl, fun inner found => ⟨target, followed key target inner rfl found⟩⟩
  | _ => cases written

/-- Every description in a form describes a node, with keys that are pairwise different: to follow
a reference opens a key that is not open. -/
lemma held {keys : List String} {part : Json} (describes : definitions.Describes [] node form)
    (holds : form.Holds keys part) :
    keys.Nodup ∧ ∃ inner, definitions.Describes keys inner part := by
  induction holds with
  | root => exact ⟨List.nodup_nil, node, describes⟩
  | child inside mem ih =>
    obtain ⟨nodup, -, -, count, children, -, -, -⟩ := ih
    obtain ⟨i, bound, rfl⟩ := List.mem_iff_getElem.mp mem
    refine ⟨nodup, _, children (_, _) (List.mem_iff_getElem.mpr ⟨i, ?_, List.getElem_zip⟩)⟩
    rw [List.length_zip]
    omega
  | @target keys part key inner inside named written ih =>
    obtain ⟨nodup, parent, described⟩ := ih
    obtain ⟨closed, followed⟩ := described.reference named
    obtain ⟨target, below⟩ := followed inner written
    have fresh : key ∉ keys := by
      intro mem
      rw [closed.mpr mem] at written
      cases written
    exact ⟨List.nodup_cons.mpr ⟨fresh, nodup⟩, _, below⟩

end Definitions.Describes

/-- Every node has a canonical form, however the definitions mention one another, and the form
describes the node. On a way from its root to a description in it no key is opened twice, and a
reference is written without its target if and only if its key is open there. -/
theorem canonical_forms_open_keys_once (definitions : Definitions) (node : Node) :
    ∃ form, definitions.canonical? node = some form ∧ definitions.Describes [] node form ∧
      ∀ keys part, form.Holds keys part → keys.Nodup ∧
        ∀ key, part.field? "ref" = some (.string key) →
          (part.field? "target" = none ↔ key ∈ keys) := by
  obtain ⟨form, made⟩ := definitions.exists_canonical node
  have describes : definitions.Describes [] node form := Node.describes_describe made
  refine ⟨form, made, describes, ?_⟩
  intro keys part holds
  obtain ⟨nodup, inner, described⟩ := describes.held holds
  exact ⟨nodup, fun key named => (described.reference named).1⟩

/-- A definition that is a reference to itself is opened once. -/
example :
    Definitions.canonical? [("Loop", .of (.reference "loop" "Loop"))]
      (.of (.reference "loop" "Loop")) =
    some (.object [("kind", .string "lazy"), ("ref", .string "loop"),
      ("target", .object [("kind", .string "lazy"), ("ref", .string "loop"),
        ("description", .null)]),
      ("description", .null)]) := rfl

end EventContracts
