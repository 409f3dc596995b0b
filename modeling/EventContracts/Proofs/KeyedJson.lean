import EventContracts.Json.Written
import EventContracts.Proofs.OrderedFields
import Mathlib.Tactic.Lemma

/-! Values in which no object holds a key twice. What is read of a document is such a value always,
and such a value is read back of what it is written as. -/

namespace EventContracts

/-- The values inside a value, one level down. -/
def Json.parts : Json → List Json
  | array items => items
  | object fields => fields.map Prod.snd
  | _ => []

/-- Induction over values: what holds of a value when it holds of its parts holds of every value. -/
theorem Json.induct {P : Json → Prop} (step : ∀ v : Json, (∀ part ∈ v.parts, P part) → P v)
    (v : Json) : P v :=
  step v fun part _ => induct step part
termination_by sizeOf v
decreasing_by
  rename_i mem
  cases v with
  | array items =>
    have : sizeOf part < sizeOf items := List.sizeOf_lt_of_mem mem
    simp only [array.sizeOf_spec]
    omega
  | object fields =>
    obtain ⟨field, inside, rfl⟩ := List.mem_map.mp mem
    have := List.sizeOf_lt_of_mem inside
    obtain ⟨name, value⟩ := field
    simp only [object.sizeOf_spec, Prod.mk.sizeOf_spec] at this ⊢
    omega
  | null | bool _ | number _ | string _ => cases mem

/-- Whether no object in a value has a key twice. -/
inductive Json.Keyed : Json → Prop where
  | mk {v : Json} (keys : ∀ fields, v = .object fields → (Fields.names fields).Nodup)
      (parts : ∀ part ∈ v.parts, part.Keyed) : Keyed v

namespace Json

lemma Keyed.parts {v : Json} (keyed : v.Keyed) : ∀ part ∈ v.parts, part.Keyed := by
  cases keyed
  assumption

namespace Keyed

variable {a b members : Fields Json} {values : List Json} {v : Option Json}

lemma null : Json.null.Keyed := .mk nofun nofun

lemma bool (yes : Bool) : (Json.bool yes).Keyed := .mk nofun nofun

lemma number (n : Number) : (Json.number n).Keyed := .mk nofun nofun

lemma string (text : String) : (Json.string text).Keyed := .mk nofun nofun

lemma array (each : ∀ v ∈ values, v.Keyed) : (Json.array values).Keyed := .mk nofun each

lemma items (keyed : (Json.array values).Keyed) : ∀ v ∈ values, v.Keyed := keyed.parts

lemma object (nodup : (Fields.names members).Nodup) (each : ∀ field ∈ members, field.2.Keyed) :
    (Json.object members).Keyed := by
  refine .mk (fun _ is => Json.object.inj is ▸ nodup) fun part mem => ?_
  obtain ⟨field, inside, rfl⟩ := List.mem_map.mp mem
  exact each field inside

lemma nodup (keyed : (Json.object members).Keyed) : (Fields.names members).Nodup := by
  cases keyed with
  | mk keys _ => exact keys members rfl

lemma fields (keyed : (Json.object members).Keyed) : ∀ field ∈ members, field.2.Keyed :=
  fun _ mem => keyed.parts _ (List.mem_map_of_mem mem)

lemma getD (keyed : ∀ w ∈ v, w.Keyed) : (v.getD .null).Keyed := by
  cases v with
  | none => exact null
  | some w => exact keyed w rfl

lemma merge (left : (Json.object a).Keyed) (right : (Json.object b).Keyed) :
    (Json.object (Fields.merge a b)).Keyed := by
  refine .object (Fields.names_merge_nodup left.nodup _) fun field mem => ?_
  rcases Fields.mem_of_mem_merge mem with mem | mem
  · exact left.fields field mem
  · exact right.fields field mem

end Keyed

mutual

lemma keyed_of_value? : ∀ (w : Written) {v : Json}, w.value? = some v → v.Keyed
  | .null, _, h => by
    obtain rfl := Option.some.inj h
    exact .null
  | .bool b, _, h => by
    obtain rfl := Option.some.inj h
    exact .bool b
  | .number n, _, h => by
    obtain ⟨n, -, rfl⟩ := Option.map_eq_some_iff.mp h
    exact .number n
  | .text s, _, h => by
    obtain ⟨s, -, rfl⟩ := Option.map_eq_some_iff.mp h
    exact .string s
  | .array items, _, h => by
    obtain ⟨values, read, rfl⟩ := Option.map_eq_some_iff.mp h
    exact .array (keyed_of_values? items read)
  | .object fields, _, h => by
    obtain ⟨pairs, read, rfl⟩ := Option.map_eq_some_iff.mp h
    exact .object (Fields.names_ofPairs_nodup pairs) fun field mem =>
      keyed_of_fieldValues? fields read field (Fields.mem_of_mem_ofPairs mem)
termination_by structural w => w

lemma keyed_of_values? : ∀ (items : List Written) {values : List Json},
    Written.values? items = some values → ∀ v ∈ values, v.Keyed
  | [], _, h => by
    obtain rfl := Option.some.inj h
    exact List.forall_mem_nil _
  | w :: rest, _, h => by
    obtain ⟨v, first, h⟩ := Option.bind_eq_some_iff.mp h
    obtain ⟨more, later, same⟩ := Option.bind_eq_some_iff.mp h
    obtain rfl := Option.some.inj same
    intro item mem
    rcases List.mem_cons.mp mem with rfl | mem
    · exact keyed_of_value? w first
    · exact keyed_of_values? rest later item mem
termination_by structural items => items

lemma keyed_of_fieldValues? : ∀ (fields : List (Option String × Written))
    {pairs : List (String × Json)}, Written.fieldValues? fields = some pairs →
    ∀ field ∈ pairs, field.2.Keyed
  | [], _, h => by
    obtain rfl := Option.some.inj h
    exact List.forall_mem_nil _
  | (name, w) :: rest, _, h => by
    obtain ⟨key, -, h⟩ := Option.bind_eq_some_iff.mp h
    obtain ⟨v, first, h⟩ := Option.bind_eq_some_iff.mp h
    obtain ⟨more, later, same⟩ := Option.bind_eq_some_iff.mp h
    obtain rfl := Option.some.inj same
    intro field mem
    rcases List.mem_cons.mp mem with rfl | mem
    · exact keyed_of_value? w first
    · exact keyed_of_fieldValues? rest later field mem
termination_by structural fields => fields

end

lemma values?_of_each {items : List Json}
    (each : ∀ item ∈ items, item.written.value? = some item) :
    Written.values? (writtenItems items) = some items := by
  induction items with
  | nil => rfl
  | cons v rest ih =>
    simp only [writtenItems, Written.values?, each v List.mem_cons_self,
      ih fun item mem => each item (List.mem_cons_of_mem _ mem)]
    rfl

lemma fieldValues?_of_each {fields : Fields Json}
    (each : ∀ field ∈ fields, field.2.written.value? = some field.2) :
    Written.fieldValues? (writtenFields fields) = some fields := by
  induction fields with
  | nil => rfl
  | cons field rest ih =>
    obtain ⟨name, v⟩ := field
    simp only [writtenFields, Written.fieldValues?, each (name, v) List.mem_cons_self,
      ih fun field mem => each field (List.mem_cons_of_mem _ mem)]
    rfl

/-- A value without repeated keys is read back. -/
lemma Keyed.read {v : Json} (keyed : v.Keyed) : v.written.value? = some v := by
  induction v using Json.induct with
  | step v ih =>
    have each (part : Json) (mem : part ∈ v.parts) : part.written.value? = some part :=
      ih part mem (keyed.parts part mem)
    cases v with
    | null | bool _ | number _ | string _ => rfl
    | array items =>
      have read : Written.values? (writtenItems items) = some items := values?_of_each each
      rw [written, Written.value?, read]
      rfl
    | object fields =>
      rw [written, Written.value?,
        fieldValues?_of_each fun field mem => each field.2 (List.mem_map_of_mem mem),
        Option.map_some, Fields.ofPairs_of_nodup keyed.nodup]

end Json

end EventContracts
