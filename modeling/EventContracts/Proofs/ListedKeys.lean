import EventContracts.Proofs.RequiredFields

/-! Records whose keys are listed one by one. The documented view has a property for each of the
keys and requires them all, by the text of the key. Validation goes over the keys that are there:
none is missed, and a key is known as a text only. -/

namespace EventContracts

/-- The keys that a literal knows: itself, if it is a text. -/
def Json.textKeys : Json → List String
  | string s => [s]
  | _ => []

namespace Node

/-- The keys that a schema of listed keys knows as texts. -/
def textKeys (node : Node) : List String :=
  match node.kind with
  | .choice values => values
  | .literal value => value.textKeys
  | .union options => options.flatMap fun option => (option.literal?.map Json.textKeys).getD []
  | _ => []

variable {patterns : PatternReader} {deref : String → Option Json → Outcome} {notes : Notes}
  {name : String}

lemma same_text {value : Json} : (Json.string name).same value = true ↔ value = .string name := by
  cases value with
  | string s =>
    refine beq_iff_eq.trans ⟨?_, fun same => (Json.string.inj same).symm⟩
    rintro rfl
    rfl
  | _ => exact ⟨nofun, nofun⟩

lemma validateWith_text_literal (value : Json) :
    validateWith patterns deref (.mk (.literal value) notes) (some (.string name)) =
      if (Json.string name).same value then .ok (some (.string name))
      else Failure.refuse (.literal value) := by
  unfold validateWith
  rfl

lemma takes_text_literal {value : Json} :
    Takes patterns deref (.mk (.literal value) notes) (.string name) ↔ name ∈ value.textKeys := by
  rw [Takes, validateWith_text_literal]
  by_cases same : (Json.string name).same value = true
  · obtain rfl := same_text.mp same
    rw [if_pos same]
    exact ⟨fun _ => List.mem_cons_self, fun _ => ⟨_, rfl⟩⟩
  · rw [if_neg same]
    constructor
    · rintro ⟨made, accepted⟩
      cases accepted
    · intro mem
      refine absurd ?_ same
      cases value with
      | string s => rw [same_text, List.mem_singleton.mp mem]
      | _ => cases mem

lemma takes_text_choice {values : List String} :
    Takes patterns deref (.mk (.choice values) notes) (.string name) ↔ name ∈ values := by
  constructor
  · intro takes
    obtain ⟨text, mem, same⟩ := takes_choice takes
    exact Json.string.inj same ▸ mem
  · intro mem
    exact ⟨some (.string name), validateWith_of_makes (.choice mem)⟩

lemma literal_of_literal? {option : Node} {value : Json} (h : option.literal? = some value) :
    ∃ notes, option = .mk (.literal value) notes := by
  obtain ⟨kind, notes⟩ := option
  cases kind with
  | literal other =>
    obtain rfl := Option.some.inj h
    exact ⟨notes, rfl⟩
  | _ => cases h

/-- A literal that is no text refuses a text for good, so the next one is asked. -/
lemma validateFirst_texts {options : List Node} {keys : List String}
    (listed : (options.mapM fun option => option.literal?.map Json.keyText) = some keys) :
    (∃ made, validateFirst patterns deref options (some (.string name)) = .ok made) ↔
      name ∈ options.flatMap fun option => (option.literal?.map Json.textKeys).getD [] := by
  induction options generalizing keys with
  | nil => exact ⟨nofun, nofun⟩
  | cons option options ih =>
    rw [List.mapM_cons] at listed
    obtain ⟨key, first, listed⟩ := Option.bind_eq_some_iff.mp listed
    obtain ⟨more, rest, -⟩ := Option.bind_eq_some_iff.mp listed
    obtain ⟨value, isLiteral, -⟩ := Option.map_eq_some_iff.mp first
    obtain ⟨notes, rfl⟩ := literal_of_literal? isLiteral
    have here : Takes patterns deref (.mk (.literal value) notes) (.string name) ↔
        name ∈ value.textKeys :=
      takes_text_literal
    rw [List.flatMap_cons, List.mem_append, isLiteral, Option.map_some, Option.getD_some, ← here,
      ← ih rest, Takes, validateFirst, validateWith_text_literal]
    by_cases same : (Json.string name).same value = true
    · rw [if_pos same]
      exact ⟨fun _ => .inl ⟨_, rfl⟩, fun _ => ⟨_, rfl⟩⟩
    · rw [if_neg same]
      constructor
      · exact .inr
      · rintro (⟨made, accepted⟩ | later)
        · cases accepted
        · exact later

/-- A schema of listed keys accepts the keys that it knows as texts. -/
lemma takes_key {key : Node} {keys : List String} (listed : key.listedKeys? = some keys) :
    Takes patterns deref key (.string name) ↔ name ∈ key.textKeys := by
  obtain ⟨kind, notes⟩ := key
  cases kind with
  | choice values => exact takes_text_choice
  | literal value => exact takes_text_literal
  | union options =>
    have first : Takes patterns deref (.mk (.union options) notes) (.string name) ↔
        ∃ made, validateFirst patterns deref options (some (.string name)) = .ok made := by
      unfold Takes validateWith
      rfl
    exact first.trans (validateFirst_texts listed)
  | _ => cases listed

end Node

section Records

variable {key value : Option Json → Outcome}

lemma recordEntry_ok {found : Fields Json} {entry : String × Json} :
    (∃ next, recordEntry key value found entry = .ok next) ↔
      (∃ parsed, key (some (.string entry.1)) = .ok parsed) ∧
        ∃ made, value (some entry.2) = .ok made := by
  constructor
  · rintro ⟨next, h⟩
    unfold recordEntry at h
    obtain ⟨parsed, named, h⟩ := exists_of_bind h
    obtain ⟨made, valued, -⟩ := exists_of_bind h
    exact ⟨⟨parsed, ok_of_under named⟩, made, ok_of_under valued⟩
  · rintro ⟨⟨parsed, named⟩, made, valued⟩
    rw [recordEntry, named, valued]
    cases made with
    | none => exact ⟨_, rfl⟩
    | some w => exact ⟨_, rfl⟩

/-- The entries of a record are accepted one by one. -/
lemma recordEntries_accepted {entries found : Fields Json} :
    (∃ result, entries.foldlM (recordEntry key value) found = .ok result) ↔
      ∀ entry ∈ entries, (∃ parsed, key (some (.string entry.1)) = .ok parsed) ∧
        ∃ made, value (some entry.2) = .ok made := by
  induction entries generalizing found with
  | nil => exact ⟨fun _ => nofun, fun _ => ⟨found, rfl⟩⟩
  | cons entry entries ih =>
    rw [List.foldlM_cons, List.forall_mem_cons]
    constructor
    · rintro ⟨result, h⟩
      obtain ⟨next, first, rest⟩ := exists_of_bind h
      exact ⟨recordEntry_ok.mp ⟨next, first⟩, ih.mp ⟨result, rest⟩⟩
    · rintro ⟨first, rest⟩
      obtain ⟨next, accepted⟩ := recordEntry_ok.mpr first
      rw [accepted]
      exact ih.mpr rest

end Records

/-- A record of listed keys accepts the objects of which it knows every key as a text and accepts
every value. No key has to be there. -/
lemma Library.takes_record {library : Library} {key value : Node} {keys : List String}
    (listed : key.listedKeys? = some keys) {notes : Notes} {fields : Fields Json} :
    library.Takes (.mk (.record key value) notes) (.object fields) ↔
      ∀ entry ∈ fields, entry.1 ∈ key.textKeys ∧ library.Takes value entry.2 := by
  have entries : library.Takes (.mk (.record key value) notes) (.object fields) ↔
      ∃ result, fields.foldlM (recordEntry
        (Node.validateWith library.patterns (library.follow library.depth) key)
        (Node.validateWith library.patterns (library.follow library.depth) value)) [] =
          .ok result := by
    rw [takes_iff]
    constructor
    · rintro ⟨made, h⟩
      cases Node.makes_of_validateWith h with
      | record each => exact ⟨_, each⟩
    · rintro ⟨found, each⟩
      exact ⟨some (.object found), Node.validateWith_of_makes (.record each)⟩
  rw [entries, recordEntries_accepted]
  refine forall₂_congr fun entry mem => and_congr (Node.takes_key listed) ?_
  exact takes_iff.symm

/-- The objects of exactly the listed keys, with accepted values, are accepted when all keys are
known as texts. If one is not, an accepted value at every key makes an object that is refused. -/
lemma Library.takes_all_iff {library : Library} {key value : Node} {keys names : List String}
    (listed : key.listedKeys? = some keys) (same : ∀ name, name ∈ names ↔ name ∈ keys)
    {notes : Notes} :
    (∀ fields, (Fields.names fields).Nodup → (∀ name, name ∈ Fields.names fields ↔ name ∈ names) →
        (∀ entry ∈ fields, library.Takes value entry.2) →
        library.Takes (.mk (.record key value) notes) (.object fields)) ↔
      keys ⊆ key.textKeys ∨ ∀ v, ¬ library.Takes value v := by
  constructor
  · intro taken
    by_cases fits : ∃ v, library.Takes value v
    · obtain ⟨v, takes⟩ := fits
      left
      have pairs (name : String) : name ∈ Fields.names (keys.map fun key => (key, v)) ↔
          name ∈ keys := by
        rw [Fields.names, List.map_map]
        exact iff_of_eq (congrArg (name ∈ ·) (List.map_id _))
      have whole : library.Takes (.mk (.record key value) notes)
          (.object (Fields.ofPairs (keys.map fun key => (key, v)))) := by
        apply taken
        · exact Fields.names_ofPairs_nodup _
        · intro name
          rw [Fields.mem_names_ofPairs, pairs, same]
        · intro entry mem
          obtain ⟨key, -, rfl⟩ := List.mem_map.mp (Fields.mem_of_mem_ofPairs mem)
          exact takes
      intro name mem
      obtain ⟨entry, inside, rfl⟩ :=
        List.mem_map.mp (Fields.mem_names_ofPairs.mpr ((pairs name).mpr mem))
      exact ((takes_record listed).mp whole entry inside).1
    · exact .inr fun v takes => fits ⟨v, takes⟩
  · intro known fields _ exactly each
    rw [takes_record listed]
    intro entry mem
    refine ⟨?_, each entry mem⟩
    rcases known with texts | none
    · exact texts ((same _).mp ((exactly _).mp (List.mem_map_of_mem mem)))
    · exact absurd (each entry mem) (none _)

namespace Document

open Depicter

variable {setting : Setting} {table : AliasTable SchemaObject} {direction : Direction}

/-- The view of a record of listed keys has all of them as properties and requires all of them. -/
lemma record_of_listed {key value : Node} {keys : List String}
    (listed : key.listedKeys? = some keys) {notes : Notes} {s : SchemaObject}
    (h : depicter.replay setting table (walk direction (.mk (.record key value) notes)) = .ok s) :
    s.required.getD [] = keys ∧
      ∀ name, name ∈ Fields.names (s.properties.getD []) ↔ name ∈ keys := by
  obtain ⟨view, layer, annotated⟩ := layer_of_replay h
  have kept : s.required = view.required ∧ s.properties = view.properties := by
    rcases replay_annotate annotated with rfl | ⟨nullable, description, examples, rfl⟩
    · exact ⟨rfl, rfl⟩
    · exact ⟨rfl, rfl⟩
  rw [kept.1, kept.2]
  cases layer with
  | record unlisted _ =>
    rw [listed] at unlisted
    cases unlisted
  | emptyRecord none =>
    obtain rfl := Option.some.inj (listed.symm.trans none)
    exact ⟨rfl, fun name => .rfl⟩
  | listedRecord some _ =>
    obtain rfl := Option.some.inj (listed.symm.trans some)
    refine ⟨rfl, fun name => Fields.mem_names_ofPairs.trans ?_⟩
    rw [Fields.names, List.map_map]
    exact iff_of_eq (congrArg (name ∈ ·) (List.map_id _))

end Document

/-- A record of listed keys is documented with all keys, as texts and required, and validated with
none. It accepts an object when it accepts the values there and knows each key as a text. So what it
accepts has the required keys only if there are none, and it accepts the objects of the documented
keys only if all of them are texts, or if no value would do. -/
theorem listed_keys_are_not_asked_for (setting : Setting) {key value : Node} {keys : List String}
    (listed : key.listedKeys? = some keys) {notes : Notes} {s : SchemaObject}
    {table later : AliasTable SchemaObject}
    (depicted : Document.depict setting .input (.mk (.record key value) notes) table =
      (.ok s, later)) :
    s.required.getD [] = keys ∧
    (∀ name, name ∈ Fields.names (s.properties.getD []) ↔ name ∈ keys) ∧
    (∀ fields, setting.library.Takes (.mk (.record key value) notes) (.object fields) ↔
      ∀ entry ∈ fields, entry.1 ∈ key.textKeys ∧ setting.library.Takes value entry.2) ∧
    ((∀ fields, (Fields.names fields).Nodup →
        setting.library.Takes (.mk (.record key value) notes) (.object fields) →
        ∀ name ∈ s.required.getD [], name ∈ Fields.names fields) ↔ keys = []) ∧
    ((∀ fields, (Fields.names fields).Nodup →
        (∀ name, name ∈ Fields.names fields ↔ name ∈ Fields.names (s.properties.getD [])) →
        (∀ entry ∈ fields, setting.library.Takes value entry.2) →
        setting.library.Takes (.mk (.record key value) notes) (.object fields)) ↔
      keys ⊆ key.textKeys ∨ ∀ v, ¬ setting.library.Takes value v) := by
  have drawn := Depicter.replay_of_depict Document.uniform.unknown depicted
  obtain ⟨required, properties⟩ := Document.record_of_listed listed drawn
  have accepts (fields : Fields Json) :
      setting.library.Takes (.mk (.record key value) notes) (.object fields) ↔
        ∀ entry ∈ fields, entry.1 ∈ key.textKeys ∧ setting.library.Takes value entry.2 :=
    Library.takes_record listed
  refine ⟨required, properties, accepts, ?_, ?_⟩
  · rw [required]
    constructor
    · intro asked
      exact List.eq_nil_iff_forall_not_mem.mpr fun name mem =>
        List.not_mem_nil (asked [] List.nodup_nil ((accepts []).mpr nofun) name mem)
    · rintro rfl fields - - name mem
      cases mem
  · exact Library.takes_all_iff listed properties

/-- Switches by name, of which one is known by its number. -/
def switchKey : Node :=
  .of (.union [.of (.literal (.string "main")), .of (.literal (.whole 5))])

def switchRecord : Node := .of (.record switchKey (.of (.boolean false)))

def switchSetting : Setting where
  library := {}
  fingerprint node := node.kindName

/-- Two switches are documented. One is left out, and the other one is the only one to be known. -/
theorem switches_are_not_asked_for :
    ∃ s table, Document.depict switchSetting .input switchRecord Document.noComponents =
        (.ok s, table) ∧
      s.required.getD [] = ["main", "5"] ∧
      switchSetting.library.Takes switchRecord (.object [("main", .bool true)]) ∧
      ¬ switchSetting.library.Takes switchRecord
        (.object [("main", .bool true), ("5", .bool true)]) := by
  obtain ⟨s, table, depicted⟩ : ∃ s table, Document.depict switchSetting .input switchRecord
      Document.noComponents = (.ok s, table) :=
    exists_of_isOk (by decide +kernel)
  have listed : switchKey.listedKeys? = some ["main", "5"] := by decide +kernel
  obtain ⟨required, -, accepts, -⟩ := listed_keys_are_not_asked_for switchSetting listed depicted
  refine ⟨s, table, depicted, required, (accepts _).mpr ?_, fun takes => ?_⟩
  · intro entry mem
    obtain rfl := List.mem_singleton.mp mem
    exact ⟨by decide, some (.bool true), rfl⟩
  · have known := ((accepts _).mp takes ("5", .bool true) (.tail _ (.head _))).1
    exact absurd known (by decide)

/-- A record of two names accepts the object without either, which are both required, and one of a
number refuses the object of all its properties. -/
theorem documented_records_differ :
    (∃ s table, Document.depict switchSetting .input
        (.of (.record (.of (.choice ["x", "y"])) (.of (.boolean false)))) Document.noComponents =
          (.ok s, table) ∧
      s.required = some ["x", "y"] ∧
      switchSetting.library.Takes (.of (.record (.of (.choice ["x", "y"])) (.of (.boolean false))))
        (.object [])) ∧
    ∃ s table, Document.depict switchSetting .input
        (.of (.record (.of (.literal (.whole 5))) (.of (.boolean false)))) Document.noComponents =
          (.ok s, table) ∧
      s.properties.map Fields.names = some ["5"] ∧
      switchSetting.library.Takes (.of (.boolean false)) (.bool true) ∧
      ¬ switchSetting.library.Takes
        (.of (.record (.of (.literal (.whole 5))) (.of (.boolean false))))
        (.object [("5", .bool true)]) := by
  refine ⟨⟨_, _, rfl, rfl, some (.object []), rfl⟩, _, _, rfl, rfl, ⟨some (.bool true), rfl⟩, ?_⟩
  rintro ⟨made, accepted⟩
  cases accepted

end EventContracts
