import EventContracts.Proofs.CanonicalReading

/-! Every schema has a canonical form. A key is opened once on the way from the root, so each
reference that is followed leaves one key fewer to open, and the keys of all references are enough.
The form tells which schema it is of, among those that come from conversion. -/

namespace EventContracts

namespace Node

lemma keysOfItems_eq (nodes : List Node) : keysOfItems nodes = nodes.flatMap referenceKeys := by
  induction nodes with
  | nil => rfl
  | cons node nodes ih => simp [keysOfItems, ih]

lemma keysOfShape_eq (shape : List (String × Node)) :
    keysOfShape shape = (shape.map Prod.snd).flatMap referenceKeys := by
  induction shape with
  | nil => rfl
  | cons field shape ih =>
    obtain ⟨key, node⟩ := field
    simp [keysOfShape, ih]

lemma referenceKeys_subset {kind : Kind Node} {notes : Notes} {child : Node}
    (mem : child ∈ kind.children) : child.referenceKeys ⊆ (mk kind notes).referenceKeys := by
  intro key inside
  cases kind with
  | tuple items rest =>
    rcases List.mem_append.mp mem with mem | mem
    · have listed : key ∈ keysOfItems items := by
        rw [keysOfItems_eq]
        exact List.mem_flatMap.mpr ⟨child, mem, inside⟩
      cases rest <;> exact List.mem_append_left _ listed
    · obtain rfl := Option.mem_toList.mp mem
      exact List.mem_append_right _ inside
  | object shape =>
    change key ∈ keysOfShape shape
    rw [keysOfShape_eq]
    exact List.mem_flatMap.mpr ⟨child, mem, inside⟩
  | union options | taggedUnion _ options =>
    change key ∈ keysOfItems options
    rw [keysOfItems_eq]
    exact List.mem_flatMap.mpr ⟨child, mem, inside⟩
  | record _ _ | intersection _ _ | pipeline _ _ | function _ _ =>
    simp only [Kind.children, List.mem_cons, List.not_mem_nil, or_false] at mem
    rcases mem with rfl | rfl
    · exact List.mem_append_left _ inside
    · exact List.mem_append_right _ inside
  | array _ _ _ | optional _ | nullable _ | readonly _ | default _ _ | fallback _ _ | branded _ _
  | effect _ _ | preprocess _ _ =>
    obtain rfl := List.mem_singleton.mp mem
    exact inside
  | _ => cases mem

variable {target? : String → String → Option (Option Json)}

lemma exists_describeItems {nodes : List Node}
    (each : ∀ node ∈ nodes, ∃ form, describeWith target? node = some form) :
    ∃ forms, describeItems target? nodes = some forms := by
  induction nodes with
  | nil => exact ⟨[], rfl⟩
  | cons node nodes ih =>
    obtain ⟨first, made⟩ := each node List.mem_cons_self
    obtain ⟨more, rest⟩ := ih fun n mem => each n (List.mem_cons_of_mem _ mem)
    exact ⟨first :: more, by simp [describeItems, made, rest]⟩

lemma exists_describeShape {shape : List (String × Node)}
    (each : ∀ node ∈ shape.map Prod.snd, ∃ form, describeWith target? node = some form) :
    ∃ forms, describeShape target? shape = some forms := by
  induction shape with
  | nil => exact ⟨[], rfl⟩
  | cons field shape ih =>
    obtain ⟨key, node⟩ := field
    obtain ⟨first, made⟩ := each node List.mem_cons_self
    obtain ⟨more, rest⟩ := ih fun n mem => each n (List.mem_cons_of_mem _ mem)
    exact ⟨(key, first) :: more, by simp [describeShape, made, rest]⟩

/-- A layer has a description, when its children have theirs and there is something to write for
the target of a reference. -/
lemma exists_describe_layer {kind : Kind Node} {notes : Notes}
    (child : ∀ node ∈ kind.children, ∃ form, describeWith target? node = some form)
    (answers : ∀ key target, kind = .reference key target → ∃ written,
      target? key target = some written) :
    ∃ form, describeWith target? (.mk kind notes) = some form := by
  unfold describeWith
  cases kind with
  | tuple items rest =>
    have items_exist : ∃ forms, describeItems target? items = some forms :=
      exists_describeItems fun n mem => child n (by simp [Kind.children, mem])
    obtain ⟨forms, made⟩ := items_exist
    cases rest with
    | none => exact ⟨_, by simp only [made]; rfl⟩
    | some rest =>
      obtain ⟨last, further⟩ := child rest (by simp [Kind.children])
      exact ⟨_, by simp only [made, further]; rfl⟩
  | object shape =>
    obtain ⟨forms, made⟩ := exists_describeShape child
    exact ⟨_, by simp only [made]; rfl⟩
  | union options | taggedUnion _ options =>
    have options_exist : ∃ forms, describeItems target? options = some forms :=
      exists_describeItems child
    obtain ⟨forms, made⟩ := options_exist
    exact ⟨_, by simp only [made]; rfl⟩
  | record left right | intersection left right | pipeline left right | function left right =>
    obtain ⟨first, made⟩ := child left (by simp [Kind.children])
    obtain ⟨second, further⟩ := child right (by simp [Kind.children])
    exact ⟨_, by simp only [made, further]; rfl⟩
  | array inner _ _ | optional inner | nullable inner | readonly inner | default inner _
  | fallback inner _ | branded inner _ | effect inner _ | preprocess inner _ =>
    obtain ⟨first, made⟩ := child inner (by simp [Kind.children])
    exact ⟨_, by simp only [made]; rfl⟩
  | reference key target =>
    obtain ⟨written, answered⟩ := answers key target rfl
    exact ⟨_, by simp only [answered]; rfl⟩
  | _ => exact ⟨_, rfl⟩

lemma exists_describeWith {node : Node}
    (answers : ∀ key ∈ node.referenceKeys, ∀ target, ∃ written, target? key target = some written) :
    ∃ form, describeWith target? node = some form := by
  induction node using Node.induct with
  | step kind notes ih =>
    refine exists_describe_layer (fun child mem => ih child mem ?_) ?_
    · exact fun key inside => answers key (referenceKeys_subset mem inside)
    · rintro key target rfl
      exact answers key (by simp [referenceKeys]) target

variable {definitions : Definitions}

variable (definitions) in
/-- At every depth there is something that is written for targets. -/
lemma describe_eq (depth : Nat) (opened : List String) (node : Node) :
    ∃ target?, describe definitions depth opened node = describeWith target? node := by
  cases depth <;> exact ⟨_, rfl⟩

/-- The keys that are not open bound the depth: to follow a reference opens one of them. -/
lemma exists_describe {keys : List String} (listed : definitions.referenceKeys ⊆ keys)
    (depth : Nat) (opened : List String) (node : Node) (within : node.referenceKeys ⊆ keys)
    (enough : (keys.filter (· ∉ opened)).length ≤ depth) :
    ∃ form, describe definitions depth opened node = some form := by
  induction depth generalizing opened node with
  | zero =>
    rw [describe]
    refine exists_describeWith ?_
    intro key inside target
    have all : keys.filter (· ∉ opened) = [] := List.eq_nil_of_length_eq_zero (by omega)
    have mem : key ∈ opened := by simpa using List.filter_eq_nil_iff.mp all key (within inside)
    exact ⟨none, if_pos mem⟩
  | succ depth ih =>
    rw [describe]
    refine exists_describeWith ?_
    intro key inside target
    by_cases mem : key ∈ opened
    · exact ⟨none, if_pos mem⟩
    · have resolved : (definitions.resolve target).referenceKeys ⊆ keys := by
        rw [Definitions.resolve]
        cases found : Fields.get? target definitions with
        | none => exact List.nil_subset _
        | some target =>
          refine List.Subset.trans ?_ listed
          intro key inside
          exact List.mem_flatMap.mpr ⟨_, Fields.mem_of_get? found, inside⟩
      have fewer : (keys.filter (· ∉ key :: opened)).length <
          (keys.filter (· ∉ opened)).length := by
        have narrower : keys.filter (· ∉ key :: opened) =
            (keys.filter (· ∉ opened)).filter (· ≠ key) := by
          rw [List.filter_filter]
          refine List.filter_congr ?_
          intro other _
          simp [not_or]
        rw [narrower, List.length_filter_lt_length_iff_exists]
        exact ⟨key, by simp [within inside, mem], by simp⟩
      obtain ⟨form, made⟩ := ih (key :: opened) _ resolved (by omega)
      exact ⟨some form, by rw [if_neg mem, made]; rfl⟩

end Node

namespace Definitions

lemma exists_canonical (definitions : Definitions) (node : Node) :
    ∃ form, definitions.canonical? node = some form := by
  have listed : definitions.referenceKeys ⊆
      (node.referenceKeys ++ definitions.referenceKeys).eraseDups := by
    intro key mem
    exact List.mem_eraseDups.mpr (List.mem_append_right _ mem)
  have within : node.referenceKeys ⊆
      (node.referenceKeys ++ definitions.referenceKeys).eraseDups := by
    intro key mem
    exact List.mem_eraseDups.mpr (List.mem_append_left _ mem)
  exact Node.exists_describe listed _ [] node within (List.length_filter_le _ _)

/-- The canonical form of a schema that comes from conversion is read back. -/
lemma form?_canonical {defined : List String} {good : Json → Prop} (definitions : Definitions)
    {node : Node} (converted : node.Converted defined good) :
    (definitions.canonical node).form? = some node := by
  obtain ⟨form, made⟩ := definitions.exists_canonical node
  rw [canonical, made]
  obtain ⟨target?, written⟩ := Node.describe_eq definitions _ [] node
  exact Node.form?_describe converted (written.symm.trans made)

/-- Schemas that come from conversion have one canonical form only when they are one. -/
theorem canonical_injective {defined : List String} {good : Json → Prop}
    (definitions : Definitions) {node other : Node} (converted : node.Converted defined good)
    (also : other.Converted defined good)
    (same : definitions.canonical node = definitions.canonical other) : node = other := by
  have read := definitions.form?_canonical converted
  rw [same, definitions.form?_canonical also] at read
  exact (Option.some.inj read).symm

end Definitions

end EventContracts
