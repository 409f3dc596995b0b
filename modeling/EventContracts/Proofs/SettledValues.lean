import EventContracts.Proofs.PlainOutputs

/-! Validation settles: what a schema makes of a value, it makes of its own result as well.
Defaults, coercions, dropped fields and renamed keys all change a value once and then find nothing
left to change. Numbers and dates are written anew each time, and a schema that chooses among
alternatives, combines results or converts them need not know its own results again, so these are
left out. -/

namespace EventContracts

/-- Whether everything that is made is made of itself again. -/
def Settling (f : Option Json → Outcome) : Prop :=
  ∀ input w, f input = .ok (some w) → f (some w) = .ok (some w)

/-- Whether a layer makes the same of its results again, when its children do and so do the targets
that are asked for. -/
def Kind.Settles (asked : String → Prop) : Kind Node → Prop
  | number _ | date _ => False
  | union _ | taggedUnion .. | intersection .. | fallback .. => False
  | effect _ (.transform _) | preprocess .. | pipeline .. => False
  | object shape => (Fields.names shape).Nodup
  | reference _ target => asked target
  | _ => True

/-- Whether all layers of a schema make the same of their results again. -/
inductive Node.Settles (asked : String → Prop) : Node → Prop where
  | mk {kind : Kind Node} {notes : Notes} (layer : kind.Settles asked)
      (children : ∀ child ∈ kind.children, child.Settles asked) : Settles asked (.mk kind notes)

lemma Node.settles_mk {asked : String → Prop} {kind : Kind Node} {notes : Notes} :
    (Node.mk kind notes).Settles asked ↔
      kind.Settles asked ∧ ∀ child ∈ kind.children, child.Settles asked :=
  ⟨fun ⟨layer, children⟩ => ⟨layer, children⟩, fun ⟨layer, children⟩ => ⟨layer, children⟩⟩

variable {input : Option Json} {w : Json}

/-- A text is checked as it is, so the checks that it has passed are passed again. -/
lemma StringChecks.validate_again {patterns : PatternReader} {checks : StringChecks}
    (h : checks.validate patterns input = .ok w) : checks.validate patterns (some w) = .ok w := by
  obtain ⟨text, rfl, subject, -⟩ := validate_ok h
  have same : checks.subject (some (.string text)) = checks.subject input := by
    rw [subject]
    rfl
  rw [validate] at h ⊢
  rw [same]
  exact h

lemma validateBigint_again {coerce : Bool} (h : validateBigint coerce input = .ok w) :
    validateBigint coerce (some w) = .ok w := by
  obtain ⟨n, rfl⟩ := validateBigint_ok h
  rfl

lemma validateBoolean_again {coerce : Bool} (h : validateBoolean coerce input = .ok w) :
    validateBoolean coerce (some w) = .ok w := by
  obtain ⟨b, rfl⟩ := validateBoolean_ok h
  rfl

lemma ok_under {α : Type} (segment : String) {result : Except Failure α} {a : α}
    (h : result = .ok a) : Failure.under segment result = .ok a := by
  rw [h]
  rfl

lemma collectItems_again {f : Json → Outcome} {items : List Json}
    (each : ∀ item ∈ items, f item = .ok (some item)) (position : Nat) :
    collectItems f position items = .ok items := by
  induction items generalizing position with
  | nil => rfl
  | cons item items ih =>
    rw [collectItems, ok_under _ (each item List.mem_cons_self),
      ih fun other mem => each other (List.mem_cons_of_mem _ mem)]
    rfl

section Records

variable {key value : Option Json → Outcome}

/-- Whether an entry of a record is kept as it is, under its own name. -/
def SettledEntry (key value : Option Json → Outcome) (entry : String × Json) : Prop :=
  ∀ found, recordEntry key value found entry = .ok (Fields.set entry.1 entry.2 found)

lemma settledEntry_of {name : String} {w : Json} {parsed : Option Json}
    (named : key (some (.string name)) = .ok parsed)
    (same : ∀ text, parsed = some (.string text) → text = name)
    (valued : value (some w) = .ok (some w)) : SettledEntry key value (name, w) := by
  intro found
  rw [recordEntry, ok_under _ named, ok_under _ valued]
  cases parsed with
  | none => rfl
  | some made =>
    cases made with
    | string text =>
      rw [same text rfl]
      rfl
    | _ => rfl

/-- Whether a record is made again of its own entries: they have different names, and each is kept
as it is. -/
structure SettledRecord (key value : Option Json → Outcome) (fields : Fields Json) : Prop where
  nodup : (Fields.names fields).Nodup
  entries : ∀ entry ∈ fields, SettledEntry key value entry

namespace SettledRecord

lemma empty : SettledRecord key value [] := ⟨List.nodup_nil, nofun⟩

/-- What is added to a record is kept as it is from then on. -/
lemma step (keys : Settling key) (values : Settling value) {found next : Fields Json}
    {entry : String × Json} (settled : SettledRecord key value found)
    (h : recordEntry key value found entry = .ok next) : SettledRecord key value next := by
  unfold recordEntry at h
  obtain ⟨parsed, named, h⟩ := exists_of_bind h
  obtain ⟨made, valued, h⟩ := exists_of_bind h
  cases made with
  | none =>
    obtain rfl := Except.ok.inj h
    exact settled
  | some w =>
    have stays := values _ w (ok_of_under valued)
    obtain rfl := Except.ok.inj h
    constructor
    · exact Fields.names_set_nodup settled.nodup _ w
    · intro field mem
      rcases Fields.mem_of_mem_set mem with rfl | mem
      · split
        · refine settledEntry_of (keys _ _ (ok_of_under named)) ?_ stays
          rintro text ⟨⟩
          rfl
        · rename_i other
          refine settledEntry_of (ok_of_under named) ?_ stays
          intro text same
          exact absurd same (other text)
      · exact settled.entries field mem

lemma run (keys : Settling key) (values : Settling value) {entries found result : Fields Json}
    (settled : SettledRecord key value found)
    (h : entries.foldlM (recordEntry key value) found = .ok result) :
    SettledRecord key value result := by
  induction entries generalizing found with
  | nil =>
    obtain rfl := Except.ok.inj h
    exact settled
  | cons entry entries ih =>
    rw [List.foldlM_cons] at h
    obtain ⟨next, first, rest⟩ := exists_of_bind h
    exact ih (settled.step keys values first) rest

/-- Entries that are kept as they are get merged, and different names are merged in their order. -/
lemma again {fields : Fields Json} (settled : SettledRecord key value fields) :
    fields.foldlM (recordEntry key value) [] = .ok fields := by
  have merged (entries : Fields Json) (each : ∀ entry ∈ entries, SettledEntry key value entry)
      (found : Fields Json) :
      entries.foldlM (recordEntry key value) found = .ok (Fields.merge found entries) := by
    induction entries generalizing found with
    | nil => rfl
    | cons entry entries ih =>
      rw [List.foldlM_cons, each entry List.mem_cons_self found]
      exact ih (fun field mem => each field (List.mem_cons_of_mem _ mem)) _
  rw [merged fields settled.entries]
  exact congrArg _ (Fields.ofPairs_of_nodup settled.nodup)

end SettledRecord

end Records

namespace Node

variable {patterns : PatternReader} {deref : String → Option Json → Outcome}

lemma validateItems_again {nodes : List Node} {items : List Json}
    (each :
      List.Forall₂ (fun node item => validateWith patterns deref node (some item) = .ok (some item))
      nodes items) (position : Nat) (more : List Json) :
    validateItems patterns deref nodes position (items ++ more) = .ok items := by
  induction each generalizing position with
  | nil => rfl
  | cons first _ ih =>
    rw [List.cons_append, validateItems, ok_under _ first, ih]
    rfl

lemma names_validateShape {shape : List (String × Node)} {fields found : Fields Json}
    (h : validateShape patterns deref shape fields = .ok found) :
    Fields.names found ⊆ Fields.names shape := by
  intro name mem
  obtain ⟨field, inside, rfl⟩ := List.mem_map.mp mem
  obtain ⟨node, listed, -⟩ := (validateShape_ok h).1 field inside
  exact List.mem_map_of_mem listed

/-- What is made of an object is made again of every object with the same declared fields: a field
that is there stays as it is, and one that was left out is left out again. -/
lemma validateShape_again (present : ∀ target v, deref target (some v) ≠ .ok none)
    {shape : List (String × Node)} {fields found given : Fields Json}
    (settling : ∀ part ∈ shape, Settling (validateWith patterns deref part.2))
    (nodup : (Fields.names shape).Nodup) (h : validateShape patterns deref shape fields = .ok found)
    (same : ∀ name ∈ Fields.names shape, Fields.get? name given = Fields.get? name found) :
    validateShape patterns deref shape given = .ok found := by
  induction shape generalizing found with
  | nil => exact h
  | cons part shape ih =>
    obtain ⟨key, node⟩ := part
    obtain ⟨result, first, h⟩ := exists_of_bind h
    obtain ⟨more, rest, h⟩ := exists_of_bind h
    have made := ok_of_under first
    obtain ⟨fresh, nodup⟩ := List.nodup_cons.mp nodup
    have others := fun part mem => settling part (List.mem_cons_of_mem _ mem)
    have here := same key List.mem_cons_self
    cases result with
    | some w =>
      obtain rfl := Except.ok.inj h
      have kept : Fields.get? key given = some w := by
        rw [here]
        simp [Fields.get?]
      have again := settling _ List.mem_cons_self _ w made
      rw [validateShape, kept, ok_under _ again, ih others nodup rest]
      · rfl
      · intro name mem
        have apart : key ≠ name := by
          rintro rfl
          exact fresh mem
        rw [same name (List.mem_cons_of_mem _ mem)]
        simp [Fields.get?, apart]
    | none =>
      obtain rfl := Except.ok.inj h
      have absent : Fields.get? key given = none := by
        rw [here, Fields.get?_eq_none]
        exact fun mem => fresh (names_validateShape rest mem)
      have again : validateWith patterns deref node none = .ok none := by
        cases was : Fields.get? key fields with
        | none => rwa [was] at made
        | some v =>
          rw [was] at made
          exact absurd made (validateWith_present present node v)
      rw [validateShape, absent, ok_under _ again,
        ih others nodup rest fun name mem => same name (List.mem_cons_of_mem _ mem)]
      rfl

lemma settling_array (present : ∀ target v, deref target (some v) ≠ .ok none) {item : Node}
    {least most : Option Nat} {notes : Notes}
    (items : Settling (validateWith patterns deref item)) :
    Settling (validateWith patterns deref (.mk (.array item least most) notes)) := by
  intro input w h
  cases makes_of_validateWith h with
  | @array _ _ _ values made counted collected =>
    obtain ⟨count, each⟩ := collectItems_ok (fun v => validateWith_present present item v) collected
    have again : ∀ part ∈ made, validateWith patterns deref item (some part) = .ok (some part) := by
      intro part mem
      obtain ⟨v, from_value⟩ := each part mem
      exact items _ part from_value
    rw [← count] at counted
    exact validateWith_of_makes (.array counted (collectItems_again again _))

lemma items_again {nodes : List Node} {items : List Json}
    (parts : ∀ node ∈ nodes, Settling (validateWith patterns deref node))
    (made :
      List.Forall₂ (fun node item =>
        ∃ v, validateWith patterns deref node (some v) = .ok (some item))
      nodes items) :
    List.Forall₂ (fun node item => validateWith patterns deref node (some item) = .ok (some item))
      nodes items := by
  induction made with
  | nil => exact .nil
  | cons first _ ih =>
    obtain ⟨v, first⟩ := first
    exact .cons (parts _ List.mem_cons_self _ _ first)
      (ih fun node mem => parts node (List.mem_cons_of_mem _ mem))

lemma settling_tuple (present : ∀ target v, deref target (some v) ≠ .ok none) {nodes : List Node}
    {rest : Option Node} {notes : Notes}
    (parts : ∀ node ∈ nodes ++ rest.toList, Settling (validateWith patterns deref node)) :
    Settling (validateWith patterns deref (.mk (.tuple nodes rest) notes)) := by
  intro input w h
  obtain ⟨first, more, rfl, positions, closed, further⟩ := validateWith_tuple_ok present h
  have items := items_again (fun node mem => parts node (List.mem_append_left _ mem)) positions
  have count : nodes.length = first.length := items.length_eq
  have again := validateItems_again items 0 more
  refine validateWith_of_makes ?_
  cases rest with
  | none =>
    rw [closed rfl, List.append_nil] at again ⊢
    exact .tuple count again
  | some node =>
    have each : ∀ item ∈ more, validateWith patterns deref node (some item) = .ok (some item) := by
      intro item mem
      obtain ⟨v, from_value⟩ := further node rfl item mem
      exact parts node (by simp) _ item from_value
    refine .longTuple (by simp [count]) again ?_
    rw [count, List.drop_left]
    exact collectItems_again each _

lemma settling_object (present : ∀ target v, deref target (some v) ≠ .ok none)
    {shape : List (String × Node)} {notes : Notes} (nodup : (Fields.names shape).Nodup)
    (parts : ∀ node ∈ shape.map Prod.snd, Settling (validateWith patterns deref node)) :
    Settling (validateWith patterns deref (.mk (.object shape) notes)) := by
  intro input w h
  cases makes_of_validateWith h with
  | object made =>
    exact validateWith_of_makes (.object (validateShape_again present
      (fun part mem => parts _ (List.mem_map_of_mem mem)) nodup made fun _ _ => rfl))

lemma settling_record {key value : Node} {notes : Notes}
    (keys : Settling (validateWith patterns deref key))
    (values : Settling (validateWith patterns deref value)) :
    Settling (validateWith patterns deref (.mk (.record key value) notes)) := by
  intro input w h
  cases makes_of_validateWith h with
  | record entries =>
    exact validateWith_of_makes (.record (SettledRecord.empty.run keys values entries).again)

lemma settling_layer {asked : String → Prop}
    (present : ∀ target v, deref target (some v) ≠ .ok none)
    (references : ∀ target, asked target → Settling (deref target))
    {kind : Kind Node} {notes : Notes} (layer : kind.Settles asked)
    (parts : ∀ child ∈ kind.children, Settling (validateWith patterns deref child)) :
    Settling (validateWith patterns deref (.mk kind notes)) := by
  have part {child : Node} (mem : child ∈ kind.children) {input : Option Json} {w : Json}
      (h : validateWith patterns deref child input = .ok (some w)) :
      validateWith patterns deref child (some w) = .ok (some w) := parts child mem input w h
  intro input w h
  cases makes_of_validateWith h with
  | array _ _ => exact settling_array present (parts _ List.mem_cons_self) _ _ h
  | tuple _ _ | longTuple _ _ _ => exact settling_tuple present parts _ _ h
  | object _ => exact settling_object present layer parts _ _ h
  | record _ =>
    have keys := parts _ List.mem_cons_self
    have values := parts _ (List.mem_cons_of_mem _ List.mem_cons_self)
    exact settling_record keys values _ _ h
  | reference made => exact references _ layer _ w made
  | string made => exact validateWith_of_makes (.string (StringChecks.validate_again made))
  | bigint made => exact validateWith_of_makes (.bigint (validateBigint_again made))
  | boolean made => exact validateWith_of_makes (.boolean (validateBoolean_again made))
  | null | any | unknown | nulled => rfl
  | literal _ | choice _ => exact h
  | optional made | branded made | readonly made | default made =>
    exact part List.mem_cons_self made
  | nullable _ made =>
    have again := part List.mem_cons_self made
    by_cases null : w = .null
    · rw [null]
      rfl
    · exact validateWith_of_makes (.nullable (fun same => null (Option.some.inj same)) again)
  | refine made holds =>
    exact validateWith_of_makes (.refine (part List.mem_cons_self made) holds)
  | number _ | date _ | union _ | taggedUnion _ | intersection _ _ _ | fallback _ | caught _
  | transform _ _ | preprocess _ _ | pipeline _ _ => exact layer.elim

variable {asked : String → Prop}

lemma settling_of_references (present : ∀ target v, deref target (some v) ≠ .ok none)
    (references : ∀ target, asked target → Settling (deref target)) {node : Node}
    (settles : node.Settles asked) : Settling (validateWith patterns deref node) := by
  induction node using Node.induct with
  | step kind notes ih =>
    obtain ⟨layer, children⟩ := settles_mk.mp settles
    exact settling_layer present references layer fun child mem => ih child mem (children child mem)

/-- The induction on the depth: a reference settles when its schema does at the depth below. -/
lemma settling_follow {definitions : Definitions}
    (closed : ∀ target, asked target → (definitions.resolve target).Settles asked) (depth : Nat)
    {target : String} (mem : asked target) :
    Settling (follow patterns definitions depth target) := by
  induction depth generalizing target with
  | zero =>
    intro input w h
    cases h
  | succ depth ih =>
    intro input w h
    simp only [follow] at h ⊢
    rw [validate_eq] at h ⊢
    exact settling_of_references (follow_present patterns definitions depth) (fun target => ih)
      (closed target mem) input w h

end Node

/-- Validation is idempotent: what it makes of a value, absent or there, it makes of its own result
again, in the same order of names, with references followed to the same depth. -/
theorem validation_is_idempotent (patterns : PatternReader) (definitions : Definitions)
    (asked : String → Prop)
    (closed : ∀ target, asked target → (definitions.resolve target).Settles asked)
    (node : Node) (settles : node.Settles asked) (depth : Nat) (input : Option Json) (w : Json)
    (made : node.validate patterns definitions depth input = .ok (some w)) :
    node.validate patterns definitions depth (some w) = .ok (some w) := by
  rw [Node.validate_eq] at made ⊢
  exact Node.settling_of_references (Node.follow_present patterns definitions depth)
    (fun target mem => Node.settling_follow closed depth mem) settles input w made

/-- Shelves with a title that is turned into text, labels by name, and a shelf above or none. -/
def shelfDefinitions : Definitions :=
  [("Shelf", .of (.object [
    ("title", .of (.string { coerce := true })),
    ("width", .of (.default (.of (.bigint true)) (.string "40"))),
    ("labels", .of (.optional (.of (.record (.of (.string {})) (.of (.boolean true)))))),
    ("above", .of (.optional (.of (.reference "shelf" "Shelf"))))]))]

def shelf : Node := .of (.default (.of (.reference "shelf" "Shelf")) (.object []))

/-- A shelf below another one, with a colour that nothing is known about. -/
def shelfInput : Json :=
  .object [("above", .object [("labels", .object [("old", .whole 0), ("red", .string "yes")])]),
    ("colour", .null), ("title", .array [.null])]

def shelfOutput : Json :=
  .object [("title", .string "[null]"), ("width", .whole 40), ("above", .object [
    ("title", .string "undefined"), ("width", .whole 40),
    ("labels", .object [("old", .bool false), ("red", .bool true)])])]

theorem shelves_are_kept :
    shelf.validate Regex.reader shelfDefinitions 2 (some shelfInput) = .ok (some shelfOutput) ∧
      shelf.validate Regex.reader shelfDefinitions 2 (some shelfOutput) =
        .ok (some shelfOutput) := by
  have made : shelf.validate Regex.reader shelfDefinitions 2 (some shelfInput) =
      .ok (some shelfOutput) := by
    rfl
  refine ⟨made, validation_is_idempotent Regex.reader shelfDefinitions (· = "Shelf") ?_ shelf ?_ 2
    _ _ made⟩
  · rintro target rfl
    simp [shelfDefinitions, Definitions.resolve, Fields.get?, Node.of, Node.settles_mk,
      Kind.Settles, Kind.children, Fields.names]
  · simp [shelf, Node.of, Node.settles_mk, Kind.Settles, Kind.children]

end EventContracts
