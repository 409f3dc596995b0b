import EventContracts.Document.Depiction
import EventContracts.Proofs.ComposedWalks
import EventContracts.Proofs.DepictionRuns
import EventContracts.Proofs.UnbrokenValidations

/-! A brand, and the mark of a value that is only read, say nothing about data, and the documented
view does not show them. They hide that a schema coerces, though: what a coercing schema gives is
neither null nor absent, and under a label this is not known any more. -/

namespace EventContracts

/-- What is said of a schema without a change in what it accepts. -/
inductive Label where
  | brand (name : String)
  | readonly

namespace Label

/-- A schema under a label. -/
def on : Label → Node → Node
  | brand name, node => .of (.branded node name)
  | readonly, node => .of (.readonly node)

variable (label : Label) (node : Node)

@[simp] lemma coerces_on : (label.on node).coerces = false := by cases label <;> rfl

@[simp] lemma notes_on : (label.on node).notes = {} := by cases label <;> rfl

@[simp] lemma validate_on (library : Library) (input : Option Json) :
    library.validate (label.on node) input = library.validate node input := by
  cases label <;> simp only [Library.validate, Node.validate_eq] <;> rfl

lemma walk_on (direction : Direction) :
    Document.walk direction (label.on node) =
      Document.walk direction node >>= Document.annotate (label.on node) direction := by
  cases label <;> rfl

end Label

namespace Walk

variable {U α β : Type} (library : Library)

/-- A walk whose questions about values have been answered; those about references are left. -/
def answered : Walk U α → Walk U α
  | done a => done a
  | halt cause => halt cause
  | ask node input next => (next (library.validate node input)).answered
  | refer target direction next => refer target direction fun view => (next view).answered

lemma answered_bind (w : Walk U α) (next : α → Walk U β) :
    (w >>= next).answered library = w.answered library >>= fun a => (next a).answered library := by
  induction w with
  | done a => rfl
  | halt cause => rfl
  | ask node input rest ih => exact ih _
  | refer target direction rest ih => exact congrArg (refer target direction) (funext ih)

lemma answered_accepts (node : Node) (input : Option Json) :
    (accepts node input : Walk U Bool).answered library =
      check (library.validate node input).accepted := by
  change (check (library.validate node input).accepted).answered library = _
  cases (library.validate node input).accepted <;> rfl

end Walk

namespace Depicter

variable {U : Type} {depicter : Depicter U} {setting : Setting}

/-- Answers that are known before do not change what a walk does. -/
lemma attend_answered (depth : Nat) (w : Walk U U) :
    depicter.attend setting depth (w.answered setting.library) =
      depicter.attend setting depth w := by
  induction w with
  | done view => rfl
  | halt cause => rfl
  | ask node input next ih => exact ih _
  | refer target direction next ih =>
    exact congrArg (depicter.answer setting depth target direction >>= ·) (funext ih)

lemma depict_answered (node : Node) (direction : Direction) :
    depicter.depict setting node direction = depicter.attend setting setting.aliasDepth
      ((depicter.walk node direction).answered setting.library) := by
  rw [attend_answered, depict, depictWithin_eq]

end Depicter

lemma TypeNames.withNull_withNull (t : TypeNames) : t.withNull.withNull = t.withNull := by
  by_cases listed : t.names.contains "null"
  · simp only [withNull, if_pos listed]
  · have now : (many (t.names ++ ["null"])).names.contains "null" := by simp [names]
    simp only [withNull, if_neg listed, if_pos now]

namespace SchemaObject

/-- A schema object with a description, with null when it is accepted, and with examples. -/
def noted (s : SchemaObject) (description : Option String) (null : Bool) (examples : List Json) :
    SchemaObject :=
  s.overlay {
    description := description
    typeNames := if null then s.typeNames.map TypeNames.withNull else none
    examples := if examples.isEmpty then none else some examples }

/-- A schema object under a label: there is nothing to say but whether null is accepted. -/
def labelled (s : SchemaObject) (null : Bool) : SchemaObject := s.noted none null []

variable (s : SchemaObject)

@[simp] lemma labelled_false : s.labelled false = s := by cases s; rfl

/-- Null that has been allowed is not allowed once more. -/
lemma labelled_noted (description : Option String) (null : Bool) (examples : List Json) :
    (s.noted description null examples).labelled null = s.noted description null examples := by
  cases null with
  | false => exact labelled_false _
  | true =>
    cases s with
    | mk reference typeNames =>
      cases typeNames with
      | none => rfl
      | some t => simp [labelled, noted, overlay, TypeNames.withNull_withNull]

end SchemaObject

namespace Document

open Walk

variable {library : Library} {direction : Direction} {node : Node} (label : Label)

lemma annotate_reference {s : SchemaObject} (reference : s.isReference) :
    annotate node direction s = pure s := by
  rw [annotate, if_pos reference]

/-- What is laid over a schema object that stands for itself. -/
lemma answered_annotate {s : SchemaObject} (itself : s.isReference = false) :
    (annotate node direction s).answered library =
      (nullable node direction).answered library >>= fun null =>
        (validExamples node direction node.notes.examples).answered library >>= fun examples =>
          pure (s.noted node.notes.description null examples) := by
  rw [annotate, itself]
  change ((nullable node direction >>= fun null =>
    validExamples node direction node.notes.examples >>= fun examples => _).answered library) = _
  rw [answered_bind]
  congr 1
  funext null
  rw [answered_bind]
  rfl

lemma answered_annotate_on {s : SchemaObject} (itself : s.isReference = false) :
    (annotate (label.on node) direction s).answered library =
      check (library.validate node (some .null)).accepted >>= fun null =>
        pure (s.labelled null) := by
  have asked : nullable (label.on node) direction = accepts (label.on node) (some .null) := by
    simp [nullable]
  rw [answered_annotate itself, asked, answered_accepts, Label.validate_on, Label.notes_on]
  rfl

/-- Where coercion does not matter, a label has nothing to add to what is said of a node. -/
lemma answered_annotate_again (visible : ¬ (direction.isOutput ∧ node.coerces)) (s : SchemaObject) :
    (annotate node direction s >>= annotate (label.on node) direction).answered library =
      (annotate node direction s).answered library := by
  by_cases reference : s.isReference
  · rw [annotate_reference reference]
    change (annotate (label.on node) direction s).answered library = _
    rw [annotate_reference reference]
  · have itself : s.isReference = false := by simpa using reference
    have asked : nullable node direction = accepts node (some .null) := by
      rw [nullable, if_neg (by simpa using visible)]
    rw [answered_bind, answered_annotate itself, asked, answered_accepts]
    cases accepted : (library.validate node (some .null)).accepted with
    | error cause => rfl
    | ok null =>
      change ((validExamples node direction node.notes.examples).answered library >>= _) >>= _ =
        (validExamples node direction node.notes.examples).answered library >>= _
      rw [Walk.bind_assoc]
      congr 1
      funext examples
      have still : (s.noted node.notes.description null examples).isReference = false := itself
      change (annotate (label.on node) direction
        (s.noted node.notes.description null examples)).answered library = _
      rw [answered_annotate_on label still, accepted]
      exact congrArg Walk.done (s.labelled_noted _ null examples)

variable (library) in
lemma answered_walk_on (visible : ¬ (direction.isOutput ∧ node.coerces)) :
    (walk direction (label.on node)).answered library = (walk direction node).answered library := by
  obtain ⟨kind, notes⟩ := node
  rw [Label.walk_on]
  have layered : ∃ layer : Path SchemaObject,
      walk direction (.mk kind notes) = layer >>= annotate (.mk kind notes) direction := by
    unfold walk
    exact ⟨_, rfl⟩
  obtain ⟨layer, same⟩ := layered
  rw [same, Walk.bind_assoc, answered_bind, answered_bind]
  congr 1
  funext s
  exact answered_annotate_again label visible s

/-- Schemas that coerce hold no others, so no validation by them is interrupted. -/
lemma unbroken_coerces (coerces : node.coerces) (input : Option Json) (cause : Interruption) :
    Unbroken cause (library.validate node input) := by
  obtain ⟨kind, notes⟩ := node
  rw [Library.validate, Node.validate_eq]
  cases kind with
  | string checks => exact (unbroken_string library.patterns checks input).map some
  | number checks => exact (unbroken_number checks input).map some
  | bigint coerce => exact (unbroken_bigint coerce input).map some
  | boolean coerce => exact (unbroken_boolean coerce input).map some
  | date coerce => exact (unbroken_date coerce input).map some
  | _ => cases coerces

lemma accepted_coerces (coerces : node.coerces) (input : Option Json) :
    ∃ yes, (library.validate node input).accepted = .ok yes := by
  match answer : library.validate node input with
  | .ok result => exact ⟨true, rfl⟩
  | .error (.invalid _) => exact ⟨false, rfl⟩
  | .error (.interrupted cause) => exact absurd answer (unbroken_coerces coerces input cause)

/-- What the examples of a schema that coerces show is known. -/
lemma answered_validExamples (coerces : node.coerces) (samples : List Json) :
    ∃ examples, (validExamples node direction samples).answered library = pure examples := by
  induction samples with
  | nil => exact ⟨[], rfl⟩
  | cons sample samples ih =>
    obtain ⟨more, rest⟩ := ih
    have first : ∃ shows, shown direction sample (library.validate node (some sample)) =
        .ok shows := by
      match answer : library.validate node (some sample) with
      | .ok result => exact ⟨_, rfl⟩
      | .error (.invalid _) => exact ⟨[], rfl⟩
      | .error (.interrupted cause) => exact absurd answer (unbroken_coerces coerces _ cause)
    obtain ⟨shows, first⟩ := first
    refine ⟨shows ++ more, ?_⟩
    change (check (shown direction sample (library.validate node (some sample))) >>= fun first =>
      validExamples node direction samples >>= fun more =>
        pure (first ++ more)).answered library = _
    rw [first, answered_bind]
    change (validExamples node direction samples >>= fun more =>
      pure (shows ++ more)).answered library = _
    rw [answered_bind, rest]
    rfl

variable (library) in
/-- The view of output of a schema that coerces: it has one type, and null is not it. -/
lemma answered_walk_coerces (coerces : node.coerces) :
    ∃ s name, (walk .output node).answered library = pure s ∧ s.isReference = false ∧
      s.typeNames = some (.one name) ∧ name ≠ "null" := by
  have laid (s : SchemaObject) (itself : s.isReference = false) : ∃ examples,
      (annotate node .output s).answered library =
        pure (s.noted node.notes.description false examples) := by
    have never : nullable node .output = pure false := by
      simp [nullable, Direction.isOutput, coerces]
    obtain ⟨examples, shown⟩ := answered_validExamples coerces node.notes.examples
    refine ⟨examples, ?_⟩
    rw [answered_annotate itself, never, shown]
    rfl
  obtain ⟨kind, notes⟩ := node
  cases kind with
  | string checks =>
    obtain ⟨examples, same⟩ := laid checks.toSchema rfl
    exact ⟨_, "string", same, rfl, rfl, by decide⟩
  | number checks =>
    obtain ⟨examples, same⟩ := laid checks.toSchema rfl
    exact ⟨_, _, same, rfl, rfl, by cases checks.whole <;> decide⟩
  | bigint coerce =>
    obtain ⟨examples, same⟩ :=
      laid { SchemaObject.ofType "integer" with format := some "bigint" } rfl
    exact ⟨_, "integer", same, rfl, rfl, by decide⟩
  | boolean coerce =>
    obtain ⟨examples, same⟩ := laid (.ofType "boolean") rfl
    exact ⟨_, "boolean", same, rfl, rfl, by decide⟩
  | date coerce =>
    obtain ⟨examples, same⟩ :=
      laid { SchemaObject.ofType "string" with format := some "date-time" } rfl
    exact ⟨_, "string", same, rfl, rfl, by decide⟩
  | _ => cases coerces

lemma isOptionalKind_coerces (coerces : node.coerces) : node.isOptionalKind = false := by
  obtain ⟨kind, notes⟩ := node
  cases kind with
  | optional inner => cases coerces
  | _ => rfl

lemma labelled_eq_iff {s : SchemaObject} {name : String} (type : s.typeNames = some (.one name))
    (other : name ≠ "null") (null : Bool) : s.labelled null = s ↔ null = false := by
  cases null with
  | false => simp
  | true =>
    refine iff_of_false ?_ nofun
    intro same
    have types := congrArg SchemaObject.typeNames same
    rw [type] at types
    simp [SchemaObject.labelled, SchemaObject.noted, SchemaObject.overlay, type,
      TypeNames.withNull, TypeNames.names, other.symm] at types

/-- The view of an object with one field. -/
def fieldView (key : String) (s : SchemaObject) (optional : Bool) : SchemaObject :=
  { SchemaObject.ofType "object" with
    properties := some [(key, s)]
    required := if optional then none else some [key] }

lemma fieldView_eq_iff {key : String} {s other : SchemaObject} {optional : Bool} :
    fieldView key s optional = fieldView key other false ↔ s = other ∧ optional = false := by
  cases optional <;> simp [fieldView]

/-- Nothing is said of an object without notes, since no object is null. -/
lemma answered_annotate_object (shape : List (String × Node)) {s : SchemaObject}
    (itself : s.isReference = false) :
    (annotate (.of (.object shape)) direction s).answered library = pure s := by
  have asked : nullable (.of (.object shape)) direction =
      accepts (.of (.object shape)) (some .null) := by
    simp [nullable, Node.of, Node.coerces, Node.kind, Kind.coerces]
  have refused : (library.validate (.of (.object shape)) (some .null)).accepted = .ok false := by
    rw [Library.validate, Node.validate_eq]
    rfl
  rw [answered_annotate itself, asked, answered_accepts, refused]
  exact congrArg Walk.done s.labelled_false

lemma answered_walk_object (key : String) :
    (walk direction (.of (.object [(key, node)]))).answered library =
      (walk direction node).answered library >>= fun s =>
        (fieldOptional direction node).answered library >>= fun optional =>
          pure (fieldView key s optional) := by
  have layered : walk direction (.of (.object [(key, node)])) =
      ((walk direction node >>= fun s => fieldOptional direction node >>= fun optional =>
          pure ([(key, s)], if optional then [] else [key])) >>=
        fun (parts : List (String × SchemaObject) × List String) =>
          pure { SchemaObject.ofType "object" with
            properties := some parts.1
            required := if parts.2.isEmpty then none else some parts.2 }) >>=
      annotate (.of (.object [(key, node)])) direction := rfl
  rw [layered, Walk.bind_assoc, Walk.bind_assoc, answered_bind]
  congr 1
  funext s
  rw [Walk.bind_assoc, answered_bind]
  congr 1
  funext optional
  have itself : (fieldView key s optional).isReference = false := rfl
  cases optional <;> exact answered_annotate_object [(key, node)] itself

lemma answered_fieldOptional_on (visible : ¬ (direction.isOutput ∧ node.coerces)) :
    (fieldOptional direction (label.on node) : Path Bool).answered library =
      (fieldOptional direction node).answered library := by
  have asked : (fieldOptional direction node : Path Bool) = accepts node none := by
    rw [fieldOptional, if_neg (by simpa using visible)]
  have asked_on : (fieldOptional direction (label.on node) : Path Bool) =
      accepts (label.on node) none := by
    simp [fieldOptional]
  rw [asked, asked_on, answered_accepts, answered_accepts, Label.validate_on]

variable {setting : Setting} {table : AliasTable SchemaObject}

lemma depict_eq_of_answered {other : Node}
    (same : (walk direction node).answered setting.library =
      (walk direction other).answered setting.library) :
    depict setting direction node table = depict setting direction other table := by
  have agree : (depicter.walk node direction).answered setting.library =
      (depicter.walk other direction).answered setting.library := same
  rw [depict, depict, depicter.depict_answered, depicter.depict_answered, agree]

lemma result_eq_iff {s other : SchemaObject} :
    ((.ok s, table) : Except Halt SchemaObject × AliasTable SchemaObject) = (.ok other, table) ↔
      s = other := by
  simp

lemma depict_of_answered {s : SchemaObject}
    (known : (walk direction node).answered setting.library = pure s) :
    depict setting direction node table = (.ok s, table) := by
  have answered : (depicter.walk node direction).answered setting.library = .done s := known
  rw [depict, depicter.depict_answered, answered]
  rfl

variable (table) in
/-- The views of output of a schema that coerces, with a label and without, and in a field. -/
lemma depict_coerces (coerces : node.coerces) {null absent : Bool}
    (acceptsNull : setting.library.acceptsNull node = .ok null)
    (acceptsAbsent : setting.library.acceptsAbsent node = .ok absent) :
    ∃ s, (s.labelled null = s ↔ null = false) ∧
      depict setting .output node table = (.ok s, table) ∧
      depict setting .output (label.on node) table = (.ok (s.labelled null), table) ∧
      ∀ key,
        depict setting .output (.of (.object [(key, node)])) table =
          (.ok (fieldView key s false), table) ∧
        depict setting .output (.of (.object [(key, label.on node)])) table =
          (.ok (fieldView key (s.labelled null) absent), table) := by
  obtain ⟨s, name, known, itself, type, other⟩ :=
    answered_walk_coerces setting.library coerces
  have known_on : (walk .output (label.on node)).answered setting.library =
      pure (s.labelled null) := by
    have accepted : (setting.library.validate node (some .null)).accepted = .ok null := acceptsNull
    rw [Label.walk_on, answered_bind, known]
    change (annotate (label.on node) .output s).answered setting.library = _
    rw [answered_annotate_on label itself, accepted]
    rfl
  have kept : (fieldOptional .output node : Path Bool) = pure false := by
    rw [fieldOptional, coerces, isOptionalKind_coerces coerces]
    rfl
  have asked : (fieldOptional .output (label.on node) : Path Bool).answered setting.library =
      pure absent := by
    have accepted : (setting.library.validate node none).accepted = .ok absent := acceptsAbsent
    have asked : (fieldOptional .output (label.on node) : Path Bool) =
        accepts (label.on node) none := by
      simp [fieldOptional]
    rw [asked, answered_accepts, Label.validate_on, accepted]
    rfl
  refine ⟨s, labelled_eq_iff type other null, depict_of_answered known,
    depict_of_answered known_on, fun key => ⟨depict_of_answered ?_, depict_of_answered ?_⟩⟩
  · rw [answered_walk_object, known, kept]
    rfl
  · rw [answered_walk_object, known_on, asked]
    rfl

end Document

open Document

variable (setting : Setting) (direction : Direction) (node : Node) (label : Label)

/-- A label does not show in the documented view, in any direction and after any depictions: the
view of a schema and the components stay the same, except that of output of a schema that coerces
and accepts null. The view of an object with the schema in a field stays the same as well, except
that of output where the schema coerces and accepts null or an absent value. -/
theorem labels_are_transparent_unless_coercing (table : AliasTable SchemaObject) :
    (depict setting direction (label.on node) table = depict setting direction node table ↔
      ¬ (direction = .output ∧ node.coerces ∧ setting.library.acceptsNull node = .ok true)) ∧
    ∀ key,
      (depict setting direction (.of (.object [(key, label.on node)])) table =
          depict setting direction (.of (.object [(key, node)])) table ↔
        ¬ (direction = .output ∧ node.coerces ∧
          (setting.library.acceptsNull node = .ok true ∨
            setting.library.acceptsAbsent node = .ok true))) := by
  by_cases coercing : direction.isOutput ∧ node.coerces
  · obtain ⟨output, coerces⟩ := coercing
    obtain rfl : direction = .output := by
      cases direction with
      | input => cases output
      | output => rfl
    obtain ⟨null, acceptsNull⟩ : ∃ null, setting.library.acceptsNull node = .ok null :=
      accepted_coerces coerces (some .null)
    obtain ⟨absent, acceptsAbsent⟩ : ∃ absent, setting.library.acceptsAbsent node = .ok absent :=
      accepted_coerces coerces none
    obtain ⟨s, same, plain, labelled, fields⟩ :=
      depict_coerces label table coerces acceptsNull acceptsAbsent
    constructor
    · rw [plain, labelled, acceptsNull, result_eq_iff, same]
      simp [coerces]
    · intro key
      obtain ⟨plain, labelled⟩ := fields key
      rw [plain, labelled, acceptsNull, acceptsAbsent, result_eq_iff, fieldView_eq_iff, same]
      simp [coerces]
  · have walks := answered_walk_on setting.library label coercing
    have never (accepted : Prop) : ¬ (direction = .output ∧ node.coerces ∧ accepted) := by
      rintro ⟨rfl, coerces, -⟩
      exact coercing ⟨rfl, coerces⟩
    constructor
    · exact iff_of_true (depict_eq_of_answered walks) (never _)
    · intro key
      refine iff_of_true (depict_eq_of_answered ?_) (never _)
      rw [answered_walk_object, answered_walk_object, walks,
        answered_fieldOptional_on label coercing]

/-- The text of a ticket, made of any value. -/
def ticket : Node := .of (.string { coerce := true })

def ticketSetting : Setting where
  library := {}
  fingerprint node := node.kindName

/-- Under a label, a ticket may be null in the view, and the field of a ticket may be missing. -/
theorem labelled_tickets_differ :
    depict ticketSetting .output ((Label.brand "Ticket").on ticket) noComponents ≠
      depict ticketSetting .output ticket noComponents ∧
    depict ticketSetting .output (.of (.object [("id", Label.readonly.on ticket)])) noComponents ≠
      depict ticketSetting .output (.of (.object [("id", ticket)])) noComponents := by
  have plain : depict ticketSetting .output ticket noComponents =
      (.ok (.ofType "string"), noComponents) := rfl
  have branded : depict ticketSetting .output ((Label.brand "Ticket").on ticket) noComponents =
      (.ok { typeNames := some (.many ["string", "null"]) }, noComponents) := rfl
  have field : depict ticketSetting .output (.of (.object [("id", ticket)])) noComponents =
      (.ok (fieldView "id" (.ofType "string") false), noComponents) := rfl
  have readonly : depict ticketSetting .output (.of (.object [("id", Label.readonly.on ticket)]))
      noComponents =
      (.ok (fieldView "id" { typeNames := some (.many ["string", "null"]) } true),
        noComponents) := rfl
  rw [plain, branded, field, readonly, ne_eq, ne_eq, result_eq_iff, result_eq_iff,
    fieldView_eq_iff]
  exact ⟨nofun, nofun⟩

end EventContracts
