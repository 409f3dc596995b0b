import EventContracts.Proofs.FormedSchemas

/-! Where the documented view of input shows that null is accepted. Null is put among the types of a
schema object, and beside one without type as an alternative; it is put neither among listed values
nor among the alternatives of a union. So null is missing where it is allowed over listed values,
and where a fallback or what is done first accepts it over listed values or alternatives. -/

namespace EventContracts

open Depicter

/-- Whether a value is null. -/
def Json.isNull : Json → Bool
  | null => true
  | _ => false

lemma Json.isNull_iff {v : Json} : v.isNull = true ↔ v = .null := by
  cases v <;> simp [isNull]

namespace SchemaObject

mutual

/-- Whether null is among the types and the listed values of a schema, one of its alternatives and
all of its members, where these are given. What stands for another schema is not asked: a member is
passed over, and an alternative is taken for one that null fits, or not, as `counted` says. -/
def admitsNull (counted : Bool) : SchemaObject → Bool
  | { typeNames, choices, oneOf, allOf, .. } =>
    (typeNames.all fun t => t.names.contains "null") &&
      (choices.all fun vs => vs.any Json.isNull) &&
      someAdmitNull? counted oneOf && allAdmitNull? counted allOf
termination_by structural s => s

def someAdmitNull? (counted : Bool) : Option (List SchemaObject) → Bool
  | some schemas => someAdmitNull counted schemas
  | none => true
termination_by structural schemas => schemas

def allAdmitNull? (counted : Bool) : Option (List SchemaObject) → Bool
  | some schemas => allAdmitNull counted schemas
  | none => true
termination_by structural schemas => schemas

def someAdmitNull (counted : Bool) : List SchemaObject → Bool
  | [] => false
  | s :: rest =>
    (if s.isReference then counted else admitsNull counted s) || someAdmitNull counted rest
termination_by structural schemas => schemas

def allAdmitNull (counted : Bool) : List SchemaObject → Bool
  | [] => true
  | s :: rest => (s.isReference || admitsNull counted s) && allAdmitNull counted rest
termination_by structural schemas => schemas

end

/-- Whether a schema stands for another one, or null fits it. -/
def allowsNull (counted : Bool) (s : SchemaObject) : Bool := s.isReference || s.admitsNull counted

/-- Whether a schema allows null when its types are left aside. -/
def opensNull (counted : Bool) (s : SchemaObject) : Bool :=
  s.isReference || { s with typeNames := none }.admitsNull counted

variable {counted : Bool} {s t : SchemaObject}

lemma someAdmitNull_iff {schemas : List SchemaObject} :
    someAdmitNull counted schemas ↔
      ∃ t ∈ schemas, t.allowsNull counted ∧ (t.isReference → counted) := by
  induction schemas with
  | nil => simp [someAdmitNull]
  | cons s rest ih =>
    cases itself : s.isReference <;> simp [someAdmitNull, ih, allowsNull, itself]

lemma allAdmitNull_iff {schemas : List SchemaObject} :
    allAdmitNull counted schemas ↔ ∀ t ∈ schemas, t.allowsNull counted := by
  induction schemas with
  | nil => simp [allAdmitNull]
  | cons s rest ih => simp [allAdmitNull, ih, allowsNull]

lemma allowsNull_iff : s.allowsNull counted ↔ s.opensNull counted ∧
    (s.isReference = false → ∀ t, s.typeNames = some t → "null" ∈ t.names) := by
  obtain ⟨reference, types⟩ := s
  cases reference <;> cases types <;>
    simp [allowsNull, opensNull, isReference, admitsNull, and_comm, and_left_comm]

/-- What a schema allows besides its types is in its listed values, alternatives and members. -/
lemma opensNull_iff (itself : s.isReference = false) : s.opensNull counted ↔
    (∀ vs, s.choices = some vs → .null ∈ vs) ∧
    (∀ options, s.oneOf = some options →
      ∃ t ∈ options, t.allowsNull counted ∧ (t.isReference → counted)) ∧
    ∀ members, s.allOf = some members → ∀ t ∈ members, t.allowsNull counted := by
  obtain ⟨reference, types, format, description, properties, required, further, items, more,
    choices, oneOf, allOf⟩ := s
  obtain rfl : reference = none := by simpa [isReference] using itself
  cases choices <;> cases oneOf <;> cases allOf <;>
    simp [opensNull, isReference, admitsNull, someAdmitNull?, allAdmitNull?, someAdmitNull_iff,
      allAdmitNull_iff, Json.isNull_iff, and_assoc]

/-- A schema that only has types, at most, allows null besides them. -/
lemma opensNull_of_free (choices : s.choices = none) (oneOf : s.oneOf = none)
    (allOf : s.allOf = none) : s.opensNull counted := by
  cases itself : s.isReference with
  | true => simp [opensNull, itself]
  | false =>
    rw [opensNull_iff itself, choices, oneOf, allOf]
    simp

lemma opensNull_of_reference (stands : s.isReference = true) : s.opensNull counted := by
  simp [opensNull, stands]

lemma allowsNull_of_reference (stands : s.isReference = true) : s.allowsNull counted := by
  simp [allowsNull, stands]

/-- Only what is said of values, alternatives and members matters besides types. -/
lemma opensNull_congr (reference : s.isReference = t.isReference) (choices : s.choices = t.choices)
    (oneOf : s.oneOf = t.oneOf)
    (allOf : s.allOf = t.allOf) : s.opensNull counted ↔ t.opensNull counted := by
  cases itself : t.isReference with
  | true => simp [opensNull, reference, itself]
  | false =>
    rw [opensNull_iff itself, opensNull_iff (reference.trans itself), choices, oneOf, allOf]

lemma null_mem_withNull (t : TypeNames) : "null" ∈ t.withNull.names := by
  rw [TypeNames.withNull]
  split
  · rename_i listed
    exact List.contains_iff_mem.mp listed
  · exact List.mem_append_right _ (List.mem_singleton_self _)

lemma typeNames_annotated (s : SchemaObject) (null : Bool) (description : Option String)
    (examples : Option (List Json)) :
    (s.overlay {
      description := description
      typeNames := if null then s.typeNames.map TypeNames.withNull else none
      examples := examples }).typeNames =
    s.typeNames.map fun t => if null then t.withNull else t := by
  cases null <;> cases own : s.typeNames <;> simp [overlay, own]

lemma null_mem_annotated {t : TypeNames} {null : Bool} :
    "null" ∈ (if null then t.withNull else t).names ↔ "null" ∈ t.names ∨ null = true := by
  cases null <;> simp [null_mem_withNull]

end SchemaObject

/-- The node that the view of input is that of, when a layer says nothing more about null. -/
def Kind.inside? {α : Type} : Kind α → Option α
  | optional inner => some inner
  | default inner _ => some inner
  | branded inner _ => some inner
  | readonly inner => some inner
  | effect inner _ => some inner
  | pipeline input _ => some input
  | _ => none

/-- Whether a layer has a type of its own which is not null. -/
def Kind.isTyped {α : Type} : Kind α → Bool
  | string _ => true
  | number _ => true
  | bigint _ => true
  | boolean _ => true
  | date _ => true
  | array .. => true
  | tuple .. => true
  | object _ => true
  | record .. => true
  | _ => false

lemma Kind.inside?_mem {α : Type} {kind : Kind α} {inner : α} (is : kind.inside? = some inner) :
    inner ∈ kind.children := by
  cases kind <;> simp only [inside?, reduceCtorEq, Option.some.injEq] at is
  all_goals
    obtain rfl := is
    simp [children]

namespace Node

/-- The values that the documented view of input lists beside types. -/
def listedValues? : Node → Option (List Json)
  | .mk kind _ => match kind with
    | .literal value => some [value]
    | .choice values => some (values.map .string)
    | .optional inner => listedValues? inner
    | .nullable inner => listedValues? inner
    | .default inner _ => listedValues? inner
    | .fallback inner _ => listedValues? inner
    | .branded inner _ => listedValues? inner
    | .readonly inner => listedValues? inner
    | .effect inner _ => listedValues? inner
    | .pipeline input _ => listedValues? input
    | _ => none
termination_by structural node => node

/-- Whether the documented view of input stands for another schema. -/
def standsIn : Node → Bool
  | .mk kind _ => match kind with
    | .optional inner => standsIn inner
    | .nullable inner => standsIn inner
    | .default inner _ => standsIn inner
    | .fallback inner _ => standsIn inner
    | .branded inner _ => standsIn inner
    | .readonly inner => standsIn inner
    | .effect inner _ => standsIn inner
    | .preprocess inner _ => standsIn inner
    | .pipeline input _ => standsIn input
    | .reference .. => true
    | _ => false
termination_by structural node => node

mutual

/-- Whether null is shown by the documented view of input, once it is among the types when `typed`
says so. Without that, a kind shows null when it has it among its own types. -/
def showsNull (patterns : PatternReader) (counted typed : Bool) : Node → Bool
  | .mk kind _ => match kind with
    | .string checks => typed || (checks.validate patterns (some .null)).isOk
    | .number checks => typed || (checks.validate (some .null)).isOk
    | .boolean coerce => typed || coerce
    | .null => true
    | .any => true
    | .unknown => true
    | .literal value => value.isNull
    | .choice _ => false
    | .union options => someShowNull patterns counted options
    | .taggedUnion _ options => someShowNull patterns counted options
    | .intersection left right =>
      showsNull patterns counted false left && showsNull patterns counted false right
    | .optional inner => showsNull patterns counted typed inner
    | .nullable inner => (listedValues? inner).all fun vs => vs.any Json.isNull
    | .default inner _ => showsNull patterns counted typed inner
    | .fallback inner _ => showsNull patterns counted true inner
    | .branded inner _ => showsNull patterns counted typed inner
    | .readonly inner => showsNull patterns counted typed inner
    | .effect inner _ => showsNull patterns counted typed inner
    | .preprocess inner _ => showsNull patterns counted true inner
    | .pipeline input _ => showsNull patterns counted typed input
    | .reference .. => true
    | _ => typed
termination_by structural node => node

/-- Whether null is shown by one of several alternatives. -/
def someShowNull (patterns : PatternReader) (counted : Bool) : List Node → Bool
  | [] => false
  | node :: rest =>
    (showsNull patterns counted false node && (counted || !standsIn node)) ||
      someShowNull patterns counted rest
termination_by structural nodes => nodes

end

variable {patterns : PatternReader} {counted : Bool}

lemma someShowNull_iff {nodes : List Node} : someShowNull patterns counted nodes ↔
    ∃ node ∈ nodes, node.showsNull patterns counted false ∧ (node.standsIn → counted) := by
  induction nodes with
  | nil => simp [someShowNull]
  | cons node rest ih => cases stands : node.standsIn <;> simp [someShowNull, ih, stands]

lemma showsNull_nullable {typed : Bool} {inner : Node} {notes : Notes} :
    (Node.mk (.nullable inner) notes).showsNull patterns counted typed ↔
      ∀ vs, inner.listedValues? = some vs → .null ∈ vs := by
  cases listed : inner.listedValues? <;> simp [showsNull, listed, Json.isNull_iff]

mutual

/-- Whether `showsNull` is all that the documented view of input can show of null. It may be more
where null is among the types of an intersection, whose sides can be put together in one object. -/
def decided (typed : Bool) : Node → Bool
  | .mk kind _ => match kind with
    | .union options => allDecided options
    | .taggedUnion _ options => allDecided options
    | .intersection left right => !typed && decided false left && decided false right
    | .optional inner => decided typed inner
    | .default inner _ => decided typed inner
    | .fallback inner _ => decided true inner
    | .branded inner _ => decided typed inner
    | .readonly inner => decided typed inner
    | .effect inner _ => decided typed inner
    | .preprocess inner _ => decided true inner
    | .pipeline input _ => decided typed input
    | _ => true
termination_by structural node => node

/-- Whether all of several alternatives are decided. -/
def allDecided : List Node → Bool
  | [] => true
  | node :: rest => decided false node && allDecided rest
termination_by structural nodes => nodes

end

lemma allDecided_iff {nodes : List Node} :
    allDecided nodes ↔ ∀ node ∈ nodes, node.decided false := by
  induction nodes with
  | nil => simp [allDecided]
  | cons node rest ih => simp [allDecided, ih]

mutual

/-- Whether null is not accepted over what would have to list it: over listed values, or, by a
fallback or what is done first, over a view that null does not fit. -/
def candid (patterns : PatternReader) (counted : Bool) : Node → Bool
  | .mk kind _ => match kind with
    | .union options => allCandid patterns counted options
    | .taggedUnion _ options => allCandid patterns counted options
    | .intersection left right => candid patterns counted left && candid patterns counted right
    | .optional inner => candid patterns counted inner
    | .nullable inner => (listedValues? inner).all fun vs => vs.any Json.isNull
    | .default inner _ => candid patterns counted inner
    | .fallback inner _ => showsNull patterns counted true inner
    | .branded inner _ => candid patterns counted inner
    | .readonly inner => candid patterns counted inner
    | .effect inner _ => candid patterns counted inner
    | .preprocess inner _ => showsNull patterns counted true inner
    | .pipeline input _ => candid patterns counted input
    | _ => true
termination_by structural node => node

/-- Whether all of several alternatives are candid. -/
def allCandid (patterns : PatternReader) (counted : Bool) : List Node → Bool
  | [] => true
  | node :: rest =>
    candid patterns counted node && (counted || !standsIn node) && allCandid patterns counted rest
termination_by structural nodes => nodes

end

lemma allCandid_iff {nodes : List Node} : allCandid patterns counted nodes ↔
    ∀ node ∈ nodes, node.candid patterns counted ∧ (node.standsIn → counted) := by
  induction nodes with
  | nil => simp [allCandid]
  | cons node rest ih => cases stands : node.standsIn <;> simp [allCandid, ih, stands]

variable (patterns counted) in
/-- What a layer shows that says nothing about null. -/
lemma inside_same {kind : Kind Node} (notes : Notes) {inner : Node}
    (is : kind.inside? = some inner) :
    (mk kind notes).listedValues? = inner.listedValues? ∧
      (mk kind notes).standsIn = inner.standsIn ∧
      (mk kind notes).candid patterns counted = inner.candid patterns counted ∧
      ∀ typed, (mk kind notes).showsNull patterns counted typed =
          inner.showsNull patterns counted typed ∧
        (mk kind notes).decided typed = inner.decided typed := by
  cases kind <;> simp only [Kind.inside?, reduceCtorEq, Option.some.injEq] at is
  all_goals
    obtain rfl := is
    exact ⟨rfl, rfl, rfl, fun _ => ⟨rfl, rfl⟩⟩

end Node

/-- Whether null is accepted. -/
def Library.TakesNull (library : Library) (node : Node) : Prop :=
  ∃ result, library.validate node (some .null) = .ok result

section Acceptance

variable {library : Library} {counted : Bool} {kind : Kind Node} {notes : Notes} {node inner : Node}

lemma acceptsNull_iff : library.acceptsNull node = .ok true ↔ library.TakesNull node := by
  rw [Library.acceptsNull, Library.TakesNull]
  rcases library.validate node (some .null) with (_ | _) | _ <;> simp [Outcome.accepted]

lemma takesNull_iff : library.TakesNull node ↔ ∃ result,
    Node.validateWith library.patterns (library.follow library.depth) node (some .null) =
      .ok result := by
  rw [Library.TakesNull, Library.validate, Node.validate_eq]

/-- A fallback accepts null whenever its validation ends. -/
lemma takesNull_fallback {value : Json} {null : Bool}
    (accepts : library.acceptsNull (.mk (.fallback inner value) notes) = .ok null) :
    null = true := by
  cases null with
  | true => rfl
  | false =>
    rw [Library.acceptsNull, Library.validate, Node.validate_eq] at accepts
    unfold Node.validateWith at accepts
    dsimp only at accepts
    split at accepts
    · cases accepts
    · rename_i refused
      rcases made : Node.validateWith library.patterns (library.follow library.depth) inner
        (some .null) with (issue | cause) | result
      · exact absurd made (refused issue)
      · rw [made] at accepts
        cases accepts
      · rw [made] at accepts
        cases accepts

lemma takesNull_inside (is : kind.inside? = some inner)
    (takes : library.TakesNull (.mk kind notes)) : library.TakesNull inner := by
  rw [takesNull_iff] at takes ⊢
  obtain ⟨result, made⟩ := takes
  cases kind <;> simp only [Kind.inside?, reduceCtorEq, Option.some.injEq] at is
  case effect =>
    obtain rfl := is
    obtain ⟨parsed, first, -⟩ := exists_of_bind made
    exact ⟨parsed, first⟩
  case pipeline =>
    obtain rfl := is
    obtain ⟨parsed, first, -⟩ := exists_of_bind made
    exact ⟨parsed, first⟩
  all_goals
    obtain rfl := is
    exact ⟨result, made⟩

lemma takesNull_sides {left right : Node}
    (takes : library.TakesNull (.mk (.intersection left right) notes)) :
    library.TakesNull left ∧ library.TakesNull right := by
  rw [takesNull_iff] at takes
  obtain ⟨result, made⟩ := takes
  obtain ⟨a, first, made⟩ := exists_of_bind made
  obtain ⟨b, second, -⟩ := exists_of_bind made
  exact ⟨takesNull_iff.mpr ⟨a, first⟩, takesNull_iff.mpr ⟨b, second⟩⟩

/-- What has a type of its own shows null when it accepts null, which is by coercion. -/
lemma takesNull_typed (typed : kind.isTyped) :
    library.TakesNull (.mk kind notes) ↔
      (Node.mk kind notes).showsNull library.patterns counted false := by
  rw [takesNull_iff]
  have checked {result : Except Failure Json} :
      (∃ r, result.map some = .ok r) ↔ result.isOk := by
    cases result <;> simp [Except.map, Except.isOk, Except.toBool]
  cases kind with
  | string checks | number checks =>
    refine checked.trans ?_
    simp [Node.showsNull]
  | boolean coerce | bigint coerce | date coerce =>
    refine checked.trans ?_
    cases coerce <;> rfl
  | array item least most | tuple items rest | object shape | record key value =>
    exact iff_of_false (fun ⟨_, made⟩ => by cases made) nofun
  | _ => cases typed

/-- What accepts null and is candid shows null. -/
lemma showsNull_of_takesNull (takes : library.TakesNull node)
    (candid : node.candid library.patterns counted) :
    node.showsNull library.patterns counted false := by
  induction node using Node.induct with
  | step kind notes ih =>
    by_cases typed : kind.isTyped
    · exact (takesNull_typed typed).mp takes
    cases inside : kind.inside? with
    | some inner =>
      obtain ⟨-, -, same, shows⟩ := Node.inside_same library.patterns counted notes inside
      rw [same] at candid
      rw [(shows false).1]
      exact ih inner (Kind.inside?_mem inside) (takesNull_inside inside takes) candid
    | none =>
      obtain ⟨result, made⟩ := takesNull_iff.mp takes
      cases kind with
      | null | any | unknown | reference _ _ => rfl
      | void | function _ _ | custom _ | choice _ => cases made
      | literal value =>
        cases Node.makes_of_validateWith made with
        | literal same =>
          cases value with
          | null => rfl
          | _ => cases same
      | nullable inner | fallback inner _ | preprocess inner _ => exact candid
      | union options | taggedUnion _ options =>
        obtain ⟨option, mem, made⟩ := Node.validateFirst_ok made
        obtain ⟨candid, stands⟩ := Node.allCandid_iff.mp candid option mem
        exact Node.someShowNull_iff.mpr
          ⟨option, mem, ih option mem (takesNull_iff.mpr ⟨result, made⟩) candid, stands⟩
      | intersection left right =>
        obtain ⟨first, second⟩ := takesNull_sides takes
        obtain ⟨ofLeft, ofRight⟩ := Bool.and_eq_true_iff.mp candid
        exact Bool.and_eq_true_iff.mpr ⟨ih left (by simp [Kind.children]) first ofLeft,
          ih right (by simp [Kind.children]) second ofRight⟩
      | optional _ | default _ _ | branded _ _ | readonly _ | effect _ _ | pipeline _ _ =>
        cases inside
      | _ => exact absurd rfl typed

end Acceptance

namespace Document

open SchemaObject

variable {setting : Setting} {counted : Bool} {table : AliasTable SchemaObject} {node inner : Node}
  {s view view' : SchemaObject}

variable (setting counted) in
/-- What the view of a node shows of null. -/
structure NullShown (node : Node) (s : SchemaObject) : Prop where
  stands : s.isReference = node.standsIn
  typed : s.isReference = false → ∀ t, s.typeNames = some t →
    s.choices = node.listedValues? ∧ s.oneOf = none ∧ s.allOf = none
  untyped : s.isReference = true ∨ s.typeNames = none → node.listedValues? = none
  types : s.isReference = false → setting.library.TakesNull node →
    ∀ t, s.typeNames = some t → "null" ∈ t.names
  opens : node.showsNull setting.library.patterns counted true → s.opensNull counted
  opened : node.decided true → s.opensNull counted →
      node.showsNull setting.library.patterns counted true
  shows : node.showsNull setting.library.patterns counted false → s.allowsNull counted
  shown : node.decided false → s.allowsNull counted →
      node.showsNull setting.library.patterns counted false

variable (setting) in
/-- Whether null is among the types of a view once its notes are laid over it. -/
def TypesNull (node : Node) (view : SchemaObject) : Prop :=
  view.isReference = false → ∀ t, view.typeNames = some t →
    "null" ∈ t.names ∨ setting.library.TakesNull node

variable (setting counted) in
/-- What the view of a layer shows of null, before the notes of its node are laid over it. -/
structure NullLayer (node : Node) (view : SchemaObject) : Prop where
  stands : view.isReference = node.standsIn
  typed : view.isReference = false → ∀ t, view.typeNames = some t →
    view.choices = node.listedValues? ∧ view.oneOf = none ∧ view.allOf = none
  untyped : view.isReference = true ∨ view.typeNames = none → node.listedValues? = none
  opens : node.showsNull setting.library.patterns counted true → view.opensNull counted
  opened : node.decided true → view.opensNull counted →
      node.showsNull setting.library.patterns counted true
  shows : node.showsNull setting.library.patterns counted false → view.opensNull counted ∧
      TypesNull setting node view
  shown : node.decided false → view.opensNull counted → TypesNull setting node view →
      node.showsNull setting.library.patterns counted false

/-- Notes add null to the types of a view when its node accepts null, and change nothing else of
what the view shows of it. -/
lemma NullLayer.annotated (layer : NullLayer setting counted node view)
    (h : depicter.replay setting table (annotate node .input view) = .ok s) :
    NullShown setting counted node s := by
  cases stands : view.isReference with
  | true =>
    rw [replay_annotate_reference stands h]
    refine ⟨layer.stands, layer.typed, layer.untyped, ?_, layer.opens, layer.opened, ?_, ?_⟩
    · intro itself
      rw [stands] at itself
      cases itself
    · exact fun _ => allowsNull_of_reference stands
    · intro decided _
      refine layer.shown decided (opensNull_of_reference stands) fun itself => ?_
      rw [stands] at itself
      cases itself
  | false =>
    obtain ⟨null, examples, accepts, -, rfl⟩ := replay_annotate_accepts stands rfl h
    have takes : setting.library.TakesNull node ↔ null = true := by
      rw [← acceptsNull_iff, accepts, Except.ok.injEq]
    have listed : ∀ t, (view.overlay {
        description := node.notes.description
        typeNames := if null then view.typeNames.map TypeNames.withNull else none
        examples := if examples.isEmpty then none else some examples }).typeNames = some t →
        ∃ t', view.typeNames = some t' ∧ (if null then t'.withNull else t') = t := by
      rw [typeNames_annotated]
      exact fun t is => Option.map_eq_some_iff.mp is
    refine ⟨layer.stands, ?_, ?_, ?_, ?_, ?_, ?_, ?_⟩
    · intro _ t is
      obtain ⟨t', own, -⟩ := listed t is
      exact layer.typed stands t' own
    · rw [typeNames_annotated, Option.map_eq_none_iff]
      exact fun free => layer.untyped free
    · intro _ accepted t is
      obtain ⟨t', -, rfl⟩ := listed t is
      exact null_mem_annotated.mpr (.inr (takes.mp accepted))
    · exact fun shows => (opensNull_congr rfl rfl rfl rfl).mpr (layer.opens shows)
    · exact fun decided opens => layer.opened decided ((opensNull_congr rfl rfl rfl rfl).mp opens)
    · intro shows
      obtain ⟨opens, types⟩ := layer.shows shows
      refine allowsNull_iff.mpr ⟨(opensNull_congr rfl rfl rfl rfl).mpr opens, fun _ t is => ?_⟩
      obtain ⟨t', own, rfl⟩ := listed t is
      rw [null_mem_annotated, ← takes]
      exact types stands t' own
    · intro decided allows
      obtain ⟨opens, types⟩ := allowsNull_iff.mp allows
      refine layer.shown decided ((opensNull_congr rfl rfl rfl rfl).mp opens) fun _ t' own => ?_
      rw [takes, ← null_mem_annotated]
      refine types stands _ ?_
      rw [typeNames_annotated, own]
      rfl

/-- A view with one type that is not null, and nothing else. -/
lemma NullLayer.leaf {name : String} (single : view.typeNames = some (.one name))
    (other : name ≠ "null") (itself : view.isReference = false) (choices : view.choices = none)
    (oneOf : view.oneOf = none) (allOf : view.allOf = none) (direct : node.standsIn = false)
    (listed : node.listedValues? = none)
    (opens : node.showsNull setting.library.patterns counted true)
    (takes : setting.library.TakesNull node ↔
      node.showsNull setting.library.patterns counted false) :
    NullLayer setting counted node view where
  stands := itself.trans direct.symm
  typed := fun _ _ _ => ⟨by rw [choices, listed], oneOf, allOf⟩
  untyped := fun _ => listed
  opens := fun _ => opensNull_of_free choices oneOf allOf
  opened := fun _ _ => opens
  shows := fun shows => ⟨opensNull_of_free choices oneOf allOf, fun _ _ _ => .inr (takes.mpr shows)⟩
  shown := by
    intro _ _ types
    rcases types itself _ single with listed | accepted
    · exact absurd (List.mem_singleton.mp listed).symm other
    · exact takes.mp accepted

/-- A typed view that null fits when it is among the listed values, and then it is a type too. -/
lemma NullLayer.listing {t : TypeNames} (itself : view.isReference = false)
    (own : view.typeNames = some t)
    (null : node.showsNull setting.library.patterns counted false → "null" ∈ t.names)
    (choices : view.choices = node.listedValues?) (oneOf : view.oneOf = none)
    (allOf : view.allOf = none) (direct : node.standsIn = false)
    (shows : ∀ typed, node.showsNull setting.library.patterns counted typed ↔
      ∀ vs, node.listedValues? = some vs → .null ∈ vs) :
    NullLayer setting counted node view := by
  have opens (typed : Bool) : view.opensNull counted ↔
      node.showsNull setting.library.patterns counted typed := by
    rw [opensNull_iff itself, shows, choices, oneOf, allOf]
    simp
  refine ⟨itself.trans direct.symm, fun _ _ _ => ⟨choices, oneOf, allOf⟩, ?_, (opens true).mpr,
    fun _ => (opens true).mp, fun shown => ⟨(opens false).mpr shown, ?_⟩, fun _ opens' _ =>
      (opens false).mp opens'⟩
  · rintro (is | is)
    · exact absurd (is.symm.trans itself) Bool.false_ne_true.symm
    · cases own.symm.trans is
  · intro _ t' is
    obtain rfl := Option.some.inj (own.symm.trans is)
    exact .inl (null shown)

/-- A view without types. -/
lemma NullLayer.free (stands : view.isReference = node.standsIn)
    (untyped : view.typeNames = none) (listed : node.listedValues? = none)
    (opens : node.showsNull setting.library.patterns counted false → view.opensNull counted)
    (opened : ∀ typed, node.decided typed → view.opensNull counted →
      node.showsNull setting.library.patterns counted false)
    (same : node.showsNull setting.library.patterns counted true =
      node.showsNull setting.library.patterns counted false) :
    NullLayer setting counted node view where
  stands := stands
  typed := fun _ t is => by rw [untyped] at is; cases is
  untyped := fun _ => listed
  opens := fun shows => opens (same ▸ shows)
  opened := fun decided open' => same ▸ opened true decided open'
  shows := fun shows => ⟨opens shows, fun _ t is => by rw [untyped] at is; cases is⟩
  shown := fun decided open' _ => opened false decided open'

/-- The view of a layer that says nothing about null. -/
lemma NullLayer.through {kind : Kind Node} {notes : Notes} (is : kind.inside? = some inner)
    (shown : NullShown setting counted inner view')
    (reference : view.isReference = view'.isReference)
    (types : view.typeNames = view'.typeNames) (choices : view.choices = view'.choices)
    (oneOf : view.oneOf = view'.oneOf) (allOf : view.allOf = view'.allOf) :
    NullLayer setting counted (.mk kind notes) view := by
  obtain ⟨listed, stands, -, each⟩ := Node.inside_same setting.library.patterns counted notes is
  have shows (typed : Bool) := (each typed).1
  have decided (typed : Bool) := (each typed).2
  have same : view.opensNull counted ↔ view'.opensNull counted :=
    opensNull_congr reference choices oneOf allOf
  refine ⟨?_, ?_, ?_, ?_, ?_, ?_, ?_⟩
  · rw [reference, stands]
    exact shown.stands
  · rw [reference, types, choices, oneOf, allOf, listed]
    exact shown.typed
  · rw [reference, types, listed]
    exact shown.untyped
  · rw [shows, same]
    exact shown.opens
  · rw [shows, decided, same]
    exact shown.opened
  · rw [shows, same]
    intro allows
    obtain ⟨opens, names⟩ := allowsNull_iff.mp (shown.shows allows)
    refine ⟨opens, fun itself t is => .inl (names ?_ t ?_)⟩
    · rw [← reference, itself]
    · rw [← types, is]
  · rw [shows, decided, same]
    intro settled opens names
    refine shown.shown settled (allowsNull_iff.mpr ⟨opens, fun itself t own => ?_⟩)
    rcases names (reference.trans itself) t (types.trans own) with listed | accepted
    · exact listed
    · exact shown.types itself (takesNull_inside is accepted) t own

/-- Null is allowed beside a view, but it is not put among listed values. -/
lemma NullLayer.orNull {notes : Notes} (inside : NullShown setting counted inner view) :
    NullLayer setting counted (.mk (.nullable inner) notes) view.orNull := by
  cases stands : view.isReference with
  | true =>
    have same : view.orNull = view := by rw [SchemaObject.orNull, if_pos stands]
    have free : inner.listedValues? = none := inside.untyped (.inl stands)
    have shows (typed : Bool) :
        (Node.mk (.nullable inner) notes).showsNull setting.library.patterns counted typed :=
      Node.showsNull_nullable.mpr (by simp [free])
    rw [same]
    refine ⟨inside.stands, inside.typed, inside.untyped, fun _ => opensNull_of_reference stands,
      fun _ _ => shows true, fun _ => ⟨opensNull_of_reference stands, ?_⟩, fun _ _ _ => shows false⟩
    intro itself
    rw [stands] at itself
    cases itself
  | false =>
    cases own : view.typeNames with
    | some t =>
      have same : view.orNull = { view with typeNames := some t.withNull } := by
        rw [SchemaObject.orNull, if_neg (by rw [stands]; exact Bool.false_ne_true)]
        simp only [own]
      obtain ⟨choices, oneOf, allOf⟩ := inside.typed stands t own
      rw [same]
      exact .listing stands rfl (fun _ => null_mem_withNull t) choices oneOf allOf
        (inside.stands.symm.trans stands) fun _ => Node.showsNull_nullable
    | none =>
      have same : view.orNull = { oneOf := some [view, ofType "null"] } := by
        rw [SchemaObject.orNull, if_neg (by rw [stands]; exact Bool.false_ne_true)]
        simp only [own]
      have free : inner.listedValues? = none := inside.untyped (.inr own)
      have shows (typed : Bool) :
          (Node.mk (.nullable inner) notes).showsNull setting.library.patterns counted typed :=
        Node.showsNull_nullable.mpr (by simp [free])
      rw [same]
      refine .free (stands.symm.trans inside.stands) rfl free (fun _ =>
        (opensNull_iff rfl).mpr ⟨by simp, ?_, by simp⟩)
        (fun _ _ _ => shows false) ((shows true).trans (shows false).symm)
      intro options is
      obtain rfl := Option.some.inj is
      exact ⟨ofType "null", by simp, rfl, fun itself => by cases itself⟩

lemma forall₂_nullShown {nodes : List Node} {views : List SchemaObject}
    (each : ∀ node ∈ nodes, ∀ t, Viewed setting table .input node t →
      NullShown setting counted node t)
    (shown : List.Forall₂ (Viewed setting table .input) nodes views) :
    List.Forall₂ (NullShown setting counted) nodes views := by
  induction shown with
  | nil => exact .nil
  | cons first _ ih =>
    exact .cons (each _ List.mem_cons_self _ first)
      (ih fun node mem => each node (List.mem_cons_of_mem _ mem))

/-- Alternatives, of which null has to fit one. -/
lemma exists_allowsNull {nodes : List Node} {views : List SchemaObject}
    (shown : List.Forall₂ (NullShown setting counted) nodes views) :
    ((∃ node ∈ nodes, node.showsNull setting.library.patterns counted false ∧
        (node.standsIn → counted)) →
      ∃ view ∈ views, view.allowsNull counted ∧ (view.isReference → counted)) ∧
      ((∀ node ∈ nodes, node.decided false) →
        (∃ view ∈ views, view.allowsNull counted ∧ (view.isReference → counted)) →
          ∃ node ∈ nodes, node.showsNull setting.library.patterns counted false ∧
            (node.standsIn → counted)) := by
  constructor
  · rintro ⟨node, mem, shows, stands⟩
    obtain ⟨view, inside, shown⟩ := exists_of_forall₂ shown mem
    exact ⟨view, inside, shown.shows shows, shown.stands ▸ stands⟩
  · rintro decided ⟨view, mem, allows, stands⟩
    obtain ⟨node, inside, shown⟩ := exists_of_forall₂ shown.flip mem
    exact ⟨node, inside, shown.shown (decided node inside) allows, shown.stands ▸ stands⟩

/-- What is done first leaves no type. -/
lemma NullLayer.preprocessed {transform : Transform} {notes : Notes}
    (inside : NullShown setting counted inner view) :
    NullLayer setting counted (.mk (.preprocess inner transform) notes) view.preprocessed := by
  have same : view.preprocessed.opensNull counted ↔ view.opensNull counted := by
    rw [SchemaObject.preprocessed]
    split
    · rfl
    · exact opensNull_congr rfl rfl rfl rfl
  have free : view.preprocessed.isReference = false → view.preprocessed.typeNames = none := by
    rw [SchemaObject.preprocessed]
    split
    · rename_i stands
      intro itself
      rw [stands] at itself
      cases itself
    · exact fun _ => rfl
  have stands : view.preprocessed.isReference = view.isReference := by
    rw [SchemaObject.preprocessed]
    split
    · rfl
    · rfl
  refine ⟨stands.trans inside.stands, ?_, fun _ => rfl,
    fun shows => same.mpr (inside.opens shows),
    fun decided opens => inside.opened decided (same.mp opens),
    fun shows => ⟨same.mpr (inside.opens shows), ?_⟩,
    fun decided opens _ => inside.opened decided (same.mp opens)⟩
  · intro itself t is
    rw [free itself] at is
    cases is
  · intro itself t is
    rw [free itself] at is
    cases is

/-- What null does not fit as an object: two sides that null fits are not put together. -/
lemma NullLayer.intersect {left right : Node} {l r : SchemaObject} {notes : Notes}
    (fromLeft : NullShown setting counted left l) (fromRight : NullShown setting counted right r) :
    NullLayer setting counted (.mk (.intersection left right) notes) (l.intersect r) := by
  have shows (typed : Bool) :
      (Node.mk (.intersection left right) notes).showsNull setting.library.patterns counted typed ↔
      left.showsNull setting.library.patterns counted false ∧
        right.showsNull setting.library.patterns counted false := by
    simp [Node.showsNull]
  have decided {typed : Bool} (is : (Node.mk (.intersection left right) notes).decided typed) :
      typed = false ∧ left.decided false ∧ right.decided false := by
    simpa [Node.decided, and_assoc] using is
  cases flat : flatten? l r with
  | none =>
    have same : l.intersect r = { allOf := some [l, r] } := by
      rw [SchemaObject.intersect, flat]
      rfl
    rw [same]
    have opens : ({ allOf := some [l, r] } : SchemaObject).opensNull counted ↔
        l.allowsNull counted ∧ r.allowsNull counted := by
      rw [opensNull_iff rfl]
      simp
    refine ⟨rfl, by simp, fun _ => rfl, ?_, ?_, ?_, ?_⟩
    · rw [shows, opens]
      rintro ⟨a, b⟩
      exact ⟨fromLeft.shows a, fromRight.shows b⟩
    · intro is
      cases (decided is).1
    · rw [shows, opens]
      rintro ⟨a, b⟩
      refine ⟨⟨fromLeft.shows a, fromRight.shows b⟩, ?_⟩
      rintro _ _ ⟨⟩
    · rw [shows, opens]
      rintro is ⟨a, b⟩ -
      obtain ⟨-, ofLeft, ofRight⟩ := decided is
      exact ⟨fromLeft.shown ofLeft a, fromRight.shown ofRight b⟩
  | some whole =>
    obtain ⟨mergeable, -, properties, -, rfl⟩ := flatten?_eq flat
    obtain ⟨object, itself⟩ := object_of_isMergeable mergeable
    have refuses : "null" ∉ (TypeNames.one "object").names := by decide
    rw [SchemaObject.intersect, flat]
    refine ⟨rfl, fun _ _ _ => ⟨rfl, rfl, rfl⟩, fun _ => rfl, fun _ => opensNull_of_free rfl rfl rfl,
      ?_, ?_, ?_⟩
    · intro is
      cases (decided is).1
    · intro is
      have allows := allowsNull_iff.mp (fromLeft.shows ((shows false).mp is).1)
      exact absurd (allows.2 itself _ object) refuses
    · intro _ _ types
      rcases types rfl _ rfl with listed | takes
      · exact absurd listed refuses
      · exact absurd (fromLeft.types itself (takesNull_sides takes).1 _ object) refuses

/-- The view of a node. The induction goes through the layers that the view of input shows. -/
lemma nullShown_of_replay {node : Node} {s : SchemaObject}
    (h : depicter.replay setting table (walk .input node) = .ok s) :
    NullShown setting counted node s := by
  induction node using Node.induct generalizing s with
  | step kind notes ih =>
    obtain ⟨view, layer, annotated⟩ := layer_of_replay h
    refine NullLayer.annotated ?_ annotated
    have child {node : Node} {t : SchemaObject} (mem : node ∈ kind.children)
        (shown : Viewed setting table .input node t) : NullShown setting counted node t :=
          ih node mem shown
    cases layer with
    | string | bigint | boolean | date | array _ | tuple _ | longTuple _ _ | object _ | record _ _
    | emptyRecord _ | listedRecord _ _ =>
      exact .leaf rfl (by decide) rfl rfl rfl rfl rfl rfl rfl (takesNull_typed rfl)
    | @number checks =>
      refine .leaf rfl ?_ rfl rfl rfl rfl rfl rfl rfl (takesNull_typed rfl)
      cases checks.whole <;> decide
    | null =>
      refine .listing rfl rfl (fun _ => List.mem_singleton_self _) rfl rfl rfl rfl fun _ => ?_
      exact iff_of_true rfl (by simp [Node.listedValues?])
    | any | unknown => exact .free rfl rfl rfl (fun _ => rfl) (fun _ _ _ => rfl) rfl
    | literal =>
      refine .listing rfl rfl (fun shows => ?_) rfl rfl rfl rfl fun _ => ?_
      · obtain rfl := Json.isNull_iff.mp shows
        exact List.mem_singleton_self _
      · constructor
        · intro shows vs is
          obtain rfl := Json.isNull_iff.mp shows
          obtain rfl := Option.some.inj is
          exact List.mem_singleton_self _
        · intro listed
          exact Json.isNull_iff.mpr (List.mem_singleton.mp (listed _ rfl)).symm
    | choice =>
      refine .listing rfl rfl (by simp [Node.showsNull]) rfl rfl rfl rfl fun _ => ?_
      simp [Node.showsNull, Node.listedValues?]
    | @union _ views shown | @taggedUnion _ _ views shown =>
      have each := forall₂_nullShown (fun _ mem _ => child mem) shown
      obtain ⟨shows, decided⟩ := exists_allowsNull each
      have opens {t : SchemaObject} (itself : t.isReference = false) (choices : t.choices = none)
          (oneOf : t.oneOf = some views) (allOf : t.allOf = none) :
          t.opensNull counted ↔
            ∃ view ∈ views, view.allowsNull counted ∧ (view.isReference → counted) := by
        rw [opensNull_iff itself, choices, oneOf, allOf]
        simp
      refine .free rfl rfl rfl (fun some => ?_) (fun _ is some => ?_) rfl
      · exact (opens rfl rfl rfl rfl).mpr (shows (Node.someShowNull_iff.mp some))
      · exact Node.someShowNull_iff.mpr (decided (Node.allDecided_iff.mp is)
          ((opens rfl rfl rfl rfl).mp some))
    | intersection fromLeft fromRight =>
      exact .intersect (child (by simp [Kind.children]) fromLeft)
        (child (by simp [Kind.children]) fromRight)
    | optional shown | readonly shown | branded shown | default shown | refine shown
    | untried shown _ =>
      exact .through rfl (child (List.mem_singleton_self _) shown) rfl rfl rfl rfl rfl
    | tried out _ _ _ => cases out
    | pipeline shown => exact .through rfl (child List.mem_cons_self shown) rfl rfl rfl rfl rfl
    | nullable shown => exact .orNull (child (List.mem_singleton_self _) shown)
    | fallback shown =>
      have shown := child (List.mem_singleton_self _) shown
      refine ⟨shown.stands, shown.typed, shown.untyped, shown.opens, shown.opened, fun shows => ?_,
        fun decided opens _ => shown.opened decided opens⟩
      refine ⟨shown.opens shows, fun itself _ _ => .inr ?_⟩
      obtain ⟨null, -, accepts, -⟩ := replay_annotate_accepts itself rfl annotated
      rw [← acceptsNull_iff, accepts, takesNull_fallback accepts]
    | preprocess shown => exact .preprocessed (child (List.mem_singleton_self _) shown)
    | reference _ =>
      refine ⟨rfl, ?_, fun _ => rfl, fun _ => opensNull_of_reference rfl, fun _ _ => rfl,
        fun _ => ⟨opensNull_of_reference rfl, ?_⟩, fun _ _ _ => rfl⟩
      all_goals rintro ⟨⟩

end Document

/-- Null is among the types of every schema object of input whose node accepts it. It fits the
schema object altogether when the node is candid, and, unless sides of an intersection are put
together under a fallback or what is done first, exactly when the node shows null. All this holds
whether or not an alternative that stands for another schema is counted as one that null fits. -/
theorem accepted_nulls_documented (setting : Setting) (node : Node)
    {before after : AliasTable SchemaObject} {s : SchemaObject}
    (depicted : Document.depict setting .input node before = (.ok s, after))
    (itself : s.isReference = false) (accepts : setting.library.acceptsNull node = .ok true) :
    (∀ t, s.typeNames = some t → "null" ∈ t.names) ∧
      ∀ counted, (node.candid setting.library.patterns counted → s.admitsNull counted) ∧
        (node.decided false →
          (s.admitsNull counted ↔ node.showsNull setting.library.patterns counted false)) := by
  have takes := acceptsNull_iff.mp accepts
  have replayed := replay_of_depict Document.uniform.unknown depicted
  have shown (counted : Bool) : Document.NullShown setting counted node s :=
    Document.nullShown_of_replay replayed
  refine ⟨(shown true).types itself takes, fun counted => ?_⟩
  have direct : s.allowsNull counted ↔ s.admitsNull counted := by
    simp [SchemaObject.allowsNull, itself]
  refine ⟨fun candid => ?_, fun decided => ?_⟩
  · exact direct.mp ((shown counted).shows (showsNull_of_takesNull takes candid))
  · exact ⟨fun admits => (shown counted).shown decided (direct.mpr admits),
      fun shows => direct.mp ((shown counted).shows shows)⟩

/-- The weather of a place: a word for it, or a wind that may be unknown. -/
def weather : Node := .of (.union [
  .of (.choice ["calm", "storm"]),
  .of (.readonly (.of (.nullable (.of (.number {})))))])

def weatherSetting : Setting where
  library := {}
  fingerprint node := node.kindName

theorem unknown_wind_documented :
    ∃ s, Document.depict weatherSetting .input weather Document.noComponents =
        (.ok s, Document.noComponents) ∧
      weatherSetting.library.acceptsNull weather = .ok true ∧ ∀ counted, s.admitsNull counted := by
  have depicted : Document.depict weatherSetting .input weather Document.noComponents = (.ok {
      oneOf := some [
        { typeNames := some (.one "string"), choices := some [.string "calm", .string "storm"] },
        { typeNames := some (.many ["number", "null"]), format := some "double" }] },
      Document.noComponents) := rfl
  refine ⟨_, depicted, rfl, fun counted => ?_⟩
  obtain ⟨-, admits⟩ := accepted_nulls_documented weatherSetting weather depicted rfl rfl
  refine (admits counted).1 ?_
  cases counted with
  | false => rfl
  | true => rfl

/-- Null is missing among listed words that may be null, and among alternatives with a fallback. -/
theorem unknown_weather_undocumented :
    (∃ s, Document.depict weatherSetting .input
          (.of (.nullable (.of (.choice ["calm", "storm"])))) Document.noComponents =
        (.ok s, Document.noComponents) ∧ s.isReference = false ∧
      weatherSetting.library.acceptsNull (.of (.nullable (.of (.choice ["calm", "storm"])))) =
        .ok true ∧ ∀ counted, s.admitsNull counted = false) ∧
    ∃ s, Document.depict weatherSetting .input
          (.of (.fallback (.of (.union [.of (.string {}), .of (.number {})])) (.string "calm")))
          Document.noComponents = (.ok s, Document.noComponents) ∧ s.isReference = false ∧
      weatherSetting.library.acceptsNull
          (.of (.fallback (.of (.union [.of (.string {}), .of (.number {})])) (.string "calm"))) =
        .ok true ∧ ∀ counted, s.admitsNull counted = false := by
  refine ⟨⟨{ typeNames := some (.many ["string", "null"])
             choices := some [.string "calm", .string "storm"] }, rfl, rfl, rfl, by decide⟩,
    ⟨{ oneOf := some [
        { typeNames := some (.one "string") },
        { typeNames := some (.one "number"), format := some "double" }] }, rfl, rfl, rfl,
      by decide⟩⟩

end EventContracts
