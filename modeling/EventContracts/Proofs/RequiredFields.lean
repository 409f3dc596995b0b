import EventContracts.Proofs.InputSoundness
import EventContracts.Proofs.TypedWalks

/-! Which fields of an object may be left out. Validation, the documented view and the typed view
decide it one field at a time, by the same question: whether the schema of the field accepts an
absent value. Coercing schemas accept one and still give a value, so in output they are asked for
nothing else than their kind. -/

namespace EventContracts

/-- Whether a field of an object may be left out, when validation answers. -/
def Setting.fieldOptional (setting : Setting) (direction : Direction) (node : Node) :
    Except Halt Bool :=
  if direction.isOutput && node.coerces then .ok node.isOptionalKind
  else (setting.library.validate node none).accepted.mapError .interrupted

namespace Depicter

variable {U : Type} {depicter : Depicter U} {setting : Setting} {table : AliasTable U}

/-- Neither the kind of view nor its aliases matter for whether a field may be left out. -/
lemma replay_fieldOptional {direction : Direction} {node : Node} :
    depicter.replay setting table (Walk.fieldOptional direction node) =
      setting.fieldOptional direction node := by
  rw [Walk.fieldOptional, Setting.fieldOptional]
  split
  · rfl
  · change depicter.replay setting table
      (Walk.check (setting.library.validate node none).accepted) = _
    cases (setting.library.validate node none).accepted <;> rfl

end Depicter

/-- In input, a field may be left out when its schema accepts an absent value. -/
lemma Setting.fieldOptional_input {setting : Setting} {node : Node} {optional : Bool}
    (asked : setting.fieldOptional .input node = .ok optional) :
    optional = true ↔ ∃ made, setting.library.validate node none = .ok made := by
  rw [Setting.fieldOptional, if_neg (by simp [Direction.isOutput])] at asked
  cases answer : setting.library.validate node none with
  | ok made =>
    rw [answer] at asked
    obtain rfl := Except.ok.inj asked
    exact ⟨fun _ => ⟨made, rfl⟩, fun _ => rfl⟩
  | error failed =>
    rw [answer] at asked
    cases failed with
    | invalid issue =>
      obtain rfl := Except.ok.inj asked
      simp
    | interrupted cause => cases asked

namespace Fields

variable {α : Type}

/-- The fields that are not under a name. -/
def without (name : String) (fields : Fields α) : Fields α :=
  fields.filter fun field => field.1 ≠ name

lemma get?_without {name other : String} {fields : Fields α} :
    get? other (without name fields) = if name = other then none else get? other fields := by
  induction fields with
  | nil => simp [without, get?]
  | cons field rest ih =>
    obtain ⟨key, value⟩ := field
    by_cases here : key = name
    · have gone : without name ((key, value) :: rest) = without name rest := by
        simp [without, here]
      rw [gone, ih, get?, here]
      split
      · rfl
      · rfl
    · have kept : without name ((key, value) :: rest) = (key, value) :: without name rest := by
        simp [without, here]
      rw [kept, get?, get?, ih]
      by_cases same : key = other
      · have apart : ¬ name = other := fun eq => here (same.trans eq.symm)
        rw [if_pos same, if_pos same, if_neg apart]
      · rw [if_neg same, if_neg same]

end Fields

namespace Node

variable {patterns : PatternReader} {deref : String → Option Json → Outcome}
  {shape : List (String × Node)}
  {fields : Fields Json}

/-- A shape accepts an object when the schemas of its fields accept what is under their names. -/
lemma validateShape_accepts :
    (∃ found, validateShape patterns deref shape fields = .ok found) ↔
      ∀ part ∈ shape, ∃ made, validateWith patterns deref part.2 (Fields.get? part.1 fields) =
        .ok made := by
  constructor
  · rintro ⟨found, accepted⟩
    exact validateShape_taken accepted
  · intro each
    induction shape with
    | nil => exact ⟨[], rfl⟩
    | cons part shape ih =>
      obtain ⟨key, node⟩ := part
      obtain ⟨made, first⟩ := each _ List.mem_cons_self
      obtain ⟨found, rest⟩ := ih fun other mem => each other (List.mem_cons_of_mem _ mem)
      rw [validateShape, first, rest]
      exact ⟨_, rfl⟩

/-- An accepted object is accepted without a field when the schemas under its name accept an absent
value. -/
lemma validateShape_without (key : String)
    (accepted : ∃ found, validateShape patterns deref shape fields = .ok found) :
    (∃ found, validateShape patterns deref shape (fields.without key) = .ok found) ↔
      ∀ node, (key, node) ∈ shape → ∃ made, validateWith patterns deref node none = .ok made := by
  rw [validateShape_accepts] at accepted ⊢
  constructor
  · intro each node mem
    have absent := each _ mem
    rwa [Fields.get?_without, if_pos rfl] at absent
  · rintro absent ⟨name, node⟩ mem
    rw [Fields.get?_without]
    by_cases same : key = name
    · rw [if_pos same]
      exact absent node (same ▸ mem)
    · rw [if_neg same]
      exact accepted _ mem

end Node

namespace Setting

variable {setting : Setting} {shape : List (String × Node)} {notes : Notes} {fields : Fields Json}

lemma validate_object :
    (∃ made, setting.library.validate (.mk (.object shape) notes) (some (.object fields)) =
        .ok made) ↔
      ∃ found, Node.validateShape
        setting.library.patterns (setting.library.follow setting.library.depth) shape fields =
          .ok found := by
  rw [Library.validate, Node.validate_eq]
  constructor
  · rintro ⟨made, accepted⟩
    cases Node.makes_of_validateWith accepted with
    | object shaped => exact ⟨_, shaped⟩
  · rintro ⟨found, shaped⟩
    exact ⟨some (.object found), Node.validateWith_of_makes (.object shaped)⟩

end Setting

open Depicter

namespace Document

variable {setting : Setting} {table : AliasTable SchemaObject} {direction : Direction}
  {shape : List (String × Node)} {notes : Notes}

/-- Every field of a shape is asked whether it may be left out, and one that may not is required. -/
lemma asked_of_walkShape {properties : List (String × SchemaObject)} {required : List String}
    (h : depicter.replay setting table (walkShape direction shape) = .ok (properties, required)) :
    ∀ part ∈ shape, ∃ optional, setting.fieldOptional direction part.2 = .ok optional ∧
      (optional = false → part.1 ∈ required) := by
  induction shape generalizing properties required with
  | nil => exact nofun
  | cons part shape ih =>
    obtain ⟨s, -, h⟩ := replay_bind_ok h
    obtain ⟨optional, asked, h⟩ := replay_bind_ok h
    obtain ⟨⟨more, names⟩, rest, h⟩ := replay_bind_ok h
    obtain ⟨-, rfl⟩ := Prod.mk.inj (Except.ok.inj h)
    rw [replay_fieldOptional] at asked
    intro other mem
    rcases List.mem_cons.mp mem with rfl | mem
    · refine ⟨optional, asked, ?_⟩
      rintro rfl
      exact List.mem_cons_self
    · obtain ⟨answer, asked, needed⟩ := ih rest other mem
      refine ⟨answer, asked, ?_⟩
      intro no
      cases optional with
      | true => exact needed no
      | false => exact List.mem_cons_of_mem _ (needed no)

/-- The required names of the view of an object are those of the fields that may not be left out. -/
lemma mem_required {s : SchemaObject}
    (h : depicter.replay setting table (walk direction (.mk (.object shape) notes)) = .ok s) :
    (∀ part ∈ shape, ∃ optional, setting.fieldOptional direction part.2 = .ok optional) ∧
      ∀ key, key ∈ s.required.getD [] ↔
        ∃ node, (key, node) ∈ shape ∧ setting.fieldOptional direction node = .ok false := by
  obtain ⟨properties, required, shown, -, kept⟩ := object_of_replay h
  have same : s.required.getD [] = required := by
    rw [kept]
    cases required with
    | nil => rfl
    | cons name names => rfl
  have asked := asked_of_walkShape shown
  constructor
  · intro part mem
    obtain ⟨optional, answer, -⟩ := asked part mem
    exact ⟨optional, answer⟩
  · intro key
    rw [same]
    constructor
    · intro mem
      obtain ⟨node, inside, answer⟩ := (replay_walkShape shown).2 key mem
      rw [replay_fieldOptional] at answer
      exact ⟨node, inside, answer⟩
    · rintro ⟨node, inside, answer⟩
      obtain ⟨optional, answer', needed⟩ := asked _ inside
      exact needed (Except.ok.inj (answer'.symm.trans answer))

lemma not_mem_required {s : SchemaObject}
    (h : depicter.replay setting table (walk direction (.mk (.object shape) notes)) = .ok s)
    {key : String} : key ∉ s.required.getD [] ↔
      ∀ node, (key, node) ∈ shape → setting.fieldOptional direction node = .ok true := by
  obtain ⟨answered, required⟩ := mem_required h
  rw [required]
  constructor
  · intro none node mem
    obtain ⟨optional, answer⟩ := answered _ mem
    cases optional with
    | true => exact answer
    | false => exact absurd ⟨node, mem, answer⟩ none
  · rintro all ⟨node, mem, answer⟩
    rw [all node mem] at answer
    cases answer

end Document

namespace TypeScript

variable {setting : Setting} {style : OptionalStyle} {table : AliasTable TypeExpr}
  {direction : Direction} {shape : List (String × Node)} {notes : Notes}

/-- The members of an object type are the fields of the shape, in order. -/
lemma replay_walkMembers {members : List (Member TypeExpr)}
    (h : (depicter style).replay setting table (walkMembers style shape direction) =
      .ok members) :
    List.Forall₂ (fun part member => member.name = part.1 ∧
      ∃ optional, setting.fieldOptional direction part.2 = .ok optional ∧
        member.optional = (optional && style.questionMark)) shape members := by
  induction shape generalizing members with
  | nil =>
    obtain rfl := Except.ok.inj h
    exact .nil
  | cons part shape ih =>
    obtain ⟨optional, asked, h⟩ := replay_bind_ok h
    obtain ⟨type, -, h⟩ := replay_bind_ok h
    obtain ⟨more, rest, h⟩ := replay_bind_ok h
    obtain rfl := Except.ok.inj h
    rw [replay_fieldOptional] at asked
    exact .cons ⟨rfl, optional, asked, rfl⟩ (ih rest)

/-- The type of an object, whatever is said about it beside. -/
lemma members_of_walk {type : TypeExpr}
    (h : (depicter style).replay setting table
      (walk style (.mk (.object shape) notes) direction) = .ok type) :
    ∃ members, type.bare = .object members ∧
      (depicter style).replay setting table (walkMembers style shape direction) = .ok members := by
  unfold walk at h
  obtain ⟨view, drawn, annotated⟩ := replay_bind_ok h
  obtain ⟨members, shown, drawn⟩ := replay_bind_ok drawn
  obtain rfl := Except.ok.inj drawn
  obtain rfl := Except.ok.inj annotated
  refine ⟨members, ?_, shown⟩
  rw [annotate]
  cases notes.description with
  | none => rfl
  | some description => rfl

end TypeScript

/-- The required names of the documented view of an object are exact. In input, they are the names
without which an accepted object is not accepted any more. In both directions, they are the names of
the members of the typed view that have no question mark. -/
theorem required_fields_are_exact (setting : Setting) (style : OptionalStyle)
    (marked : style.questionMark = true) (shape : List (String × Node))
    (nodup : (Fields.names shape).Nodup) (notes : Notes) :
    (∀ s table later,
      Document.depict setting .input (.mk (.object shape) notes) table = (.ok s, later) →
      ∀ (fields : Fields Json) made,
        setting.library.validate (.mk (.object shape) notes) (some (.object fields)) = .ok made →
        ∀ key, (∃ made', setting.library.validate (.mk (.object shape) notes)
            (some (.object (fields.without key))) = .ok made') ↔ key ∉ s.required.getD []) ∧
    ∀ direction s table later type table' later',
      Document.depict setting direction (.mk (.object shape) notes) table = (.ok s, later) →
      TypeScript.depict setting style direction (.mk (.object shape) notes) table' =
        (.ok type, later') →
      ∃ members, type.bare = .object members ∧
        members.map TypeScript.Member.name = Fields.names shape ∧
        ∀ member ∈ members, member.optional = true ↔ member.name ∉ s.required.getD [] := by
  constructor
  · intro s table later depicted fields made accepted key
    have drawn := replay_of_depict Document.uniform.unknown depicted
    have each := Setting.validate_object.mp ⟨made, accepted⟩
    rw [Setting.validate_object, Node.validateShape_without key each,
      Document.not_mem_required drawn]
    obtain ⟨answered, -⟩ := Document.mem_required drawn
    refine forall₂_congr ?_
    intro node mem
    obtain ⟨optional, answer⟩ := answered _ mem
    have absent := Setting.fieldOptional_input answer
    rw [Library.validate, Node.validate_eq] at absent
    rw [← absent, answer]
    constructor
    · rintro rfl
      rfl
    · intro same
      exact Except.ok.inj same
  · intro direction s table later type table' later' depicted typed
    have drawn := replay_of_depict Document.uniform.unknown depicted
    obtain ⟨members, bare, walked⟩ :=
      TypeScript.members_of_walk (replay_of_depict (TypeScript.uniform style).unknown typed)
    have each := TypeScript.replay_walkMembers walked
    refine ⟨members, bare, ?_, ?_⟩
    · have names := List.forall₂_map_left_iff.mpr
        (List.forall₂_map_right_iff.mpr (each.imp fun part member same => same.1.symm))
      rw [List.forall₂_eq_eq_eq] at names
      exact names.symm
    · intro member mem
      obtain ⟨⟨key, node⟩, inside, named, optional, answer, here⟩ :=
        exists_of_forall₂ each.flip mem
      rw [here, marked, Bool.and_true, Document.not_mem_required drawn]
      constructor
      · rintro rfl other found
        have same := List.inj_on_of_nodup_map nodup inside found named.symm
        rw [← (Prod.mk.inj same).2]
        exact answer
      · intro all
        have yes := all node (named ▸ inside)
        exact Except.ok.inj (answer.symm.trans yes)

/-- A guest with a name, a note that is coerced, a colour with a default, and more guests. -/
def guestShape : List (String × Node) := [
  ("name", .of (.string { minLength := some 1 })),
  ("note", .of (.string { coerce := true })),
  ("colour", .of (.default (.of (.string {})) (.string "red"))),
  ("guests", .of (.optional (.of (.array (.of (.reference "guest" "Guest")) none none))))]

def guestSetting : Setting where
  library := { definitions := [("Guest", .of (.object guestShape))] }
  fingerprint node := node.kindName

/-- A guest who tells everything. -/
def guestInput : Fields Json :=
  [("name", .string "Ada"), ("note", .whole 7), ("colour", .string "blue"), ("guests", .array [])]

theorem guest_required_fields_are_exact :
    (∃ s table made,
      Document.depict guestSetting .input (.of (.object guestShape)) Document.noComponents =
        (.ok s, table) ∧
      guestSetting.library.validate (.of (.object guestShape)) (some (.object guestInput)) =
        .ok made ∧
      ∀ key, (∃ made', guestSetting.library.validate (.of (.object guestShape))
        (some (.object (guestInput.without key))) = .ok made') ↔ key ∉ s.required.getD []) ∧
    ∃ s table type table' members,
      Document.depict guestSetting .output (.of (.object guestShape)) Document.noComponents =
        (.ok s, table) ∧
      TypeScript.depict guestSetting {} .output (.of (.object guestShape)) TypeScript.noAliases =
        (.ok type, table') ∧
      type.bare = .object members ∧
      ∀ member ∈ members, member.optional = true ↔ member.name ∉ s.required.getD [] := by
  obtain ⟨taken, typed⟩ :=
    required_fields_are_exact guestSetting {} rfl guestShape (by decide) {}
  have drawn (direction : Direction) : ∃ s table, Document.depict guestSetting direction
      (.of (.object guestShape)) Document.noComponents = (.ok s, table) :=
    exists_of_isOk (by cases direction <;> decide +kernel)
  constructor
  · obtain ⟨s, table, depicted⟩ := drawn .input
    have accepts : (guestSetting.library.validate (.of (.object guestShape))
        (some (.object guestInput))).isOk = true := by decide +kernel
    cases accepted : guestSetting.library.validate (.of (.object guestShape))
      (some (.object guestInput)) with
    | error failure =>
      rw [accepted] at accepts
      cases accepts
    | ok made =>
      exact ⟨s, table, made, depicted, rfl, taken s _ table depicted guestInput made accepted⟩
  · obtain ⟨s, table, depicted⟩ := drawn .output
    obtain ⟨type, table', shown⟩ : ∃ type table', TypeScript.depict guestSetting {} .output
        (.of (.object guestShape)) TypeScript.noAliases = (.ok type, table') :=
      exists_of_isOk (by decide +kernel)
    obtain ⟨members, bare, -, each⟩ := typed .output s _ table type _ table' depicted shown
    exact ⟨s, table, type, table', members, depicted, shown, bare, each⟩

end EventContracts
