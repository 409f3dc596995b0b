import EventContracts.Proofs.KeyedJson
import EventContracts.Proofs.PlainOutputs

/-! Validation gives no object that holds a key twice. Fields come from the shape of an object, or
they are set and merged into a map; all other values come from the input, from the node, or from a
transform. -/

namespace EventContracts

/-- Whether a transform gives keyed values for keyed ones. -/
def Transform.Keyed (t : Transform) : Prop :=
  ∀ v w : Json, v.Keyed → t.apply v = .ok w → w.Keyed

/-- Whether the values that a layer holds are keyed, and the fields of its shape differ in names. -/
def Kind.Keyed : Kind Node → Prop
  | literal value => value.Keyed
  | object shape => (Fields.names shape).Nodup
  | default _ value => value.Keyed
  | fallback _ value => value.Keyed
  | effect _ (.transform t) => t.Keyed
  | preprocess _ t => t.Keyed
  | _ => True

/-- Whether no map inside of a node holds a key twice, and no transform in it makes such a map. -/
inductive Node.Keyed : Node → Prop where
  | mk {kind : Kind Node} {notes : Notes} (layer : kind.Keyed)
      (examples : ∀ v ∈ notes.examples, v.Keyed) (children : ∀ child ∈ kind.children, child.Keyed) :
      Keyed (.mk kind notes)

lemma Node.keyed_mk {kind : Kind Node} {notes : Notes} : (Node.mk kind notes).Keyed ↔
    kind.Keyed ∧ (∀ v ∈ notes.examples, v.Keyed) ∧ ∀ child ∈ kind.children, child.Keyed :=
  ⟨fun ⟨layer, examples, children⟩ => ⟨layer, examples, children⟩,
    fun ⟨layer, examples, children⟩ => ⟨layer, examples, children⟩⟩

/-- Whether keyed values give keyed values. -/
def Keeps (f : Option Json → Outcome) : Prop :=
  ∀ input result, (∀ v ∈ input, v.Keyed) → f input = .ok result → ∀ w ∈ result, w.Keyed

lemma Keeps.present {f : Option Json → Outcome} (keeps : Keeps f) (v : Json) (result : Option Json)
    (keyed : v.Keyed) (h : f (some v) = .ok result) : ∀ w ∈ result, w.Keyed := by
  refine keeps (some v) result ?_ h
  rintro w ⟨⟩
  exact keyed

lemma keyed_mergeResults {a b result : Option Json} (left : ∀ v ∈ a, v.Keyed)
    (right : ∀ v ∈ b, v.Keyed) (h : mergeResults a b = .ok result) : ∀ w ∈ result, w.Keyed := by
  unfold mergeResults at h
  split at h
  · obtain rfl := Except.ok.inj h
    rintro w ⟨⟩
    exact (left _ rfl).merge (right _ rfl)
  · split at h
    · obtain rfl := Except.ok.inj h
      exact left
    · cases h
  · obtain rfl := Except.ok.inj h
    rintro w ⟨⟩
  · cases h

lemma keyed_collectItems {f : Json → Outcome}
    (keeps : ∀ v result, v.Keyed → f v = .ok result → ∀ w ∈ result, w.Keyed) {position : Nat}
    {values items : List Json} (given : ∀ v ∈ values, v.Keyed)
    (h : collectItems f position values = .ok items) : ∀ item ∈ items, item.Keyed := by
  induction values generalizing position items with
  | nil =>
    obtain rfl := Except.ok.inj h
    exact List.forall_mem_nil _
  | cons v values ih =>
    obtain ⟨result, first, h⟩ := exists_of_bind h
    obtain ⟨more, rest, h⟩ := exists_of_bind h
    obtain rfl := Except.ok.inj h
    intro item mem
    rcases List.mem_cons.mp mem with rfl | mem
    · exact .getD (keeps v result (given v List.mem_cons_self) (ok_of_under first))
    · exact ih (fun v mem => given v (List.mem_cons_of_mem _ mem)) rest item mem

/-- Entries of a record are set one after the other. -/
lemma keyed_recordEntries {key value : Option Json → Outcome} (keeps : Keeps value)
    {entries found result : Fields Json} (given : ∀ entry ∈ entries, entry.2.Keyed)
    (start : (Json.object found).Keyed)
    (h : entries.foldlM (recordEntry key value) found = .ok result) :
    (Json.object result).Keyed := by
  induction entries generalizing found with
  | nil =>
    obtain rfl := Except.ok.inj h
    exact start
  | cons entry entries ih =>
    rw [List.foldlM_cons] at h
    obtain ⟨next, first, rest⟩ := exists_of_bind h
    refine ih (fun e mem => given e (List.mem_cons_of_mem _ mem)) ?_ rest
    unfold recordEntry at first
    obtain ⟨parsedKey, -, first⟩ := exists_of_bind first
    obtain ⟨made, valued, first⟩ := exists_of_bind first
    cases made with
    | none =>
      obtain rfl := Except.ok.inj first
      exact start
    | some w =>
      have new : w.Keyed := by
        refine keeps _ _ ?_ (ok_of_under valued) w rfl
        rintro v ⟨⟩
        exact given entry List.mem_cons_self
      obtain rfl := Except.ok.inj first
      refine .object (Fields.names_set_nodup start.nodup _ w) fun field mem => ?_
      rcases Fields.mem_of_mem_set mem with rfl | mem
      · exact new
      · exact start.fields field mem

namespace Node

variable {patterns : PatternReader} {deref : String → Option Json → Outcome}

lemma keyed_validateItems {nodes : List Node}
    (keeps : ∀ node ∈ nodes, Keeps (validateWith patterns deref node)) {position : Nat}
    {values items : List Json} (given : ∀ v ∈ values, v.Keyed)
    (h : validateItems patterns deref nodes position values = .ok items) :
    ∀ item ∈ items, item.Keyed := by
  induction nodes generalizing position values items with
  | nil =>
    obtain rfl := Except.ok.inj h
    exact List.forall_mem_nil _
  | cons node nodes ih =>
    cases values with
    | nil =>
      obtain rfl := Except.ok.inj h
      exact List.forall_mem_nil _
    | cons v values =>
      obtain ⟨result, first, h⟩ := exists_of_bind h
      obtain ⟨more, rest, h⟩ := exists_of_bind h
      obtain rfl := Except.ok.inj h
      intro item mem
      rcases List.mem_cons.mp mem with rfl | mem
      · refine .getD (keeps node List.mem_cons_self _ _ ?_ (ok_of_under first))
        rintro w ⟨⟩
        exact given v List.mem_cons_self
      · exact ih (fun n inside => keeps n (List.mem_cons_of_mem _ inside))
          (fun w inside => given w (List.mem_cons_of_mem _ inside)) rest item mem

/-- The fields that are found in an object are some of those of the shape, in its order. -/
lemma sublist_validateShape {shape : List (String × Node)} {fields found : Fields Json}
    (h : validateShape patterns deref shape fields = .ok found) :
    (Fields.names found).Sublist (Fields.names shape) := by
  induction shape generalizing found with
  | nil =>
    obtain rfl := Except.ok.inj h
    exact .slnil
  | cons part shape ih =>
    obtain ⟨key, node⟩ := part
    obtain ⟨result, -, h⟩ := exists_of_bind h
    obtain ⟨more, rest, h⟩ := exists_of_bind h
    obtain rfl := Except.ok.inj h
    cases result with
    | none => exact (ih rest).cons _
    | some w => exact (ih rest).cons_cons _

lemma keyed_validateShape {shape : List (String × Node)}
    (nodup : (Fields.names shape).Nodup)
    (keeps : ∀ node ∈ shape.map Prod.snd, Keeps (validateWith patterns deref node))
    {fields found : Fields Json} (given : ∀ field ∈ fields, field.2.Keyed)
    (h : validateShape patterns deref shape fields = .ok found) : (Json.object found).Keyed := by
  refine .object ((sublist_validateShape h).nodup nodup) fun field mem => ?_
  obtain ⟨node, inside, made⟩ := (validateShape_ok h).1 field mem
  refine keeps node (List.mem_map_of_mem inside) _ _ ?_ made _ rfl
  intro v present
  exact given _ (Fields.mem_of_get? present)

/-- What a keyed node makes of keyed values is keyed, when what references give is. The result of a
node comes from those of its children, from the value itself or from the layer. -/
lemma keeps_of_references (references : ∀ target, Keeps (deref target)) {node : Node}
    (keyed : node.Keyed) : Keeps (validateWith patterns deref node) := by
  induction node using Node.induct with
  | step kind notes ih =>
    obtain ⟨layer, -, children⟩ := Node.keyed_mk.mp keyed
    have each (child : Node) (mem : child ∈ kind.children) :
        Keeps (validateWith patterns deref child) :=
      ih child mem (children child mem)
    rintro input result given made w ⟨⟩
    cases makes_of_validateWith made with
    | string made =>
      obtain ⟨text, rfl, -⟩ := StringChecks.validate_ok made
      exact .string text
    | number made =>
      obtain ⟨d, rfl, -⟩ := NumberChecks.validate_ok made
      exact .number _
    | bigint made =>
      obtain ⟨n, rfl⟩ := validateBigint_ok made
      exact .number _
    | boolean made =>
      obtain ⟨b, rfl⟩ := validateBoolean_ok made
      exact .bool b
    | date made =>
      obtain ⟨text, rfl⟩ := validateDate_ok made
      exact .string text
    | null | nulled => exact .null
    | any | unknown | literal _ | choice _ => exact given _ rfl
    | array _ collected =>
      exact .array (keyed_collectItems (each _ List.mem_cons_self).present (given _ rfl).items
        collected)
    | tuple _ positions =>
      exact .array (keyed_validateItems (fun node mem => each node (by simp [Kind.children, mem]))
        (given _ rfl).items positions)
    | longTuple _ positions collected =>
      have front := keyed_validateItems (fun node mem => each node (by simp [Kind.children, mem]))
        (given _ rfl).items positions
      have back := keyed_collectItems (each _ (by simp [Kind.children])).present
        (fun v mem => (given _ rfl).items v (List.mem_of_mem_drop mem)) collected
      exact .array fun item mem => (List.mem_append.mp mem).elim (front item) (back item)
    | object shaped => exact keyed_validateShape layer each (given _ rfl).fields shaped
    | record entries =>
      have start : (Json.object []).Keyed := .object List.nodup_nil (List.forall_mem_nil _)
      exact keyed_recordEntries (each _ (by simp [Kind.children])) (given _ rfl).fields start
        entries
    | union first | taggedUnion first =>
      obtain ⟨option, mem, made⟩ := validateFirst_ok first
      exact each option mem _ _ given made w rfl
    | intersection fromLeft fromRight merged =>
      exact keyed_mergeResults (each _ (by simp [Kind.children]) _ _ given fromLeft)
        (each _ (by simp [Kind.children]) _ _ given fromRight) merged w rfl
    | optional made | nullable _ made | fallback made | branded made | readonly made
    | refine made _ => exact each _ List.mem_cons_self _ _ given made w rfl
    | default made =>
      refine each _ List.mem_cons_self _ _ ?_ made w rfl
      rintro v ⟨⟩
      cases input with
      | none => exact layer
      | some v => exact given v rfl
    | caught _ => exact layer
    | transform made applied =>
      exact layer _ w (.getD (each _ List.mem_cons_self _ _ given made)) applied
    | preprocess applied made =>
      refine each _ List.mem_cons_self _ _ ?_ made w rfl
      rintro v ⟨⟩
      exact layer _ _ (.getD given) applied
    | pipeline before made =>
      exact each _ (by simp [Kind.children]) _ _
        (each _ (by simp [Kind.children]) _ _ given before) made w rfl
    | reference made => exact references _ _ _ given made w rfl

lemma keeps_follow {definitions : Definitions} (keyed : ∀ field ∈ definitions, field.2.Keyed)
    (depth : Nat) (target : String) : Keeps (follow patterns definitions depth target) := by
  induction depth generalizing target with
  | zero =>
    intro input result _ made
    cases made
  | succ depth ih =>
    intro input result given made
    simp only [follow] at made
    rw [validate_eq] at made
    refine keeps_of_references ih ?_ input result given made
    rw [Definitions.resolve]
    cases found : Fields.get? target definitions with
    | none => exact keyed_mk.mpr ⟨trivial, List.forall_mem_nil _, List.forall_mem_nil _⟩
    | some node => exact keyed _ (Fields.mem_of_get? found)

end Node

/-- What a keyed node gives is keyed, among keyed definitions. -/
lemma Library.keeps_validate {library : Library}
    (definitions : ∀ field ∈ library.definitions, field.2.Keyed) {node : Node}
    (keyed : node.Keyed) : Keeps (library.validate node) := by
  intro input result given made
  rw [Library.validate, Node.validate_eq] at made
  exact Node.keeps_of_references (Node.keeps_follow definitions _) keyed input result given made

end EventContracts
