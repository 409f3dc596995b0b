import EventContracts.Json.Merge
import EventContracts.Proofs.KeyedJson
import EventContracts.Proofs.MergedFields

/-! Deep merges do not depend on the grouping: of three values both groupings fail, or both give the
same value, with keys and items in the same order. Lists are put one after the other, values without
parts have to be equal, and objects are merged value by value. -/

namespace EventContracts

/-- A number equals both of two equal numbers or none of them. -/
lemma Number.same_left {a b : Number} (equal : a.same b) (c : Number) : c.same a = c.same b := by
  cases a <;> cases b <;> simp only [Number.same, Double.same, Bool.false_eq_true,
    beq_iff_eq] at equal <;> cases c <;> simp only [Number.same, Double.same, equal]

namespace Json

variable {u v w : Json}

/-- What decides how a value is merged. -/
inductive Shape where
  | leaf
  | list
  | record
deriving DecidableEq

/-- The shape of a value. -/
def shape : Json → Shape
  | array _ => .list
  | object _ => .record
  | _ => .leaf

/-- Values of different shapes do not fit together. -/
lemma mergeDeep_of_shape_ne (different : v.shape ≠ w.shape) : mergeDeep v w = none := by
  cases w <;> cases v <;> first
    | exact absurd rfl different
    | simp only [mergeDeep, same, Bool.false_eq_true, if_false]

/-- A merge keeps the shape of its sides. -/
lemma shape_mergeDeep (merged : mergeDeep v w = some u) : u.shape = w.shape := by
  cases w with
  | array items =>
    cases v with
    | array into => obtain rfl := Option.some.inj merged; rfl
    | _ => cases merged
  | object fields =>
    cases v with
    | object into =>
      obtain ⟨_, -, rfl⟩ := Option.map_eq_some_iff.mp merged
      rfl
    | _ => cases merged
  | null | bool _ | number _ | string _ =>
    rw [mergeDeep] at merged
    obtain ⟨-, same⟩ := Option.ite_none_right_eq_some.mp merged
    obtain rfl := Option.some.inj same
    rfl

lemma exists_of_shape_list (list : v.shape = .list) : ∃ items, v = .array items := by
  cases v with
  | array items => exact ⟨items, rfl⟩
  | _ => cases list

lemma exists_of_shape_record (record : v.shape = .record) : ∃ fields, v = .object fields := by
  cases v with
  | object fields => exact ⟨fields, rfl⟩
  | _ => cases record

/-- A leaf takes the place of an equal value, and is merged into no other. -/
lemma mergeDeep_leaf (leaf : w.shape = .leaf) (into : Json) :
    mergeDeep into w = if into.same w then some w else none := by
  cases w with
  | array items => cases leaf
  | object fields => cases leaf
  | null | bool _ | number _ | string _ => simp only [mergeDeep]

/-- A value equals both of two equal leaves or none of them. -/
lemma same_left (leaf : w.shape = .leaf) (equal : v.same w) (u : Json) : u.same v = u.same w := by
  cases w with
  | array items => cases leaf
  | object fields => cases leaf
  | null =>
    cases v with
    | null => rfl
    | _ => cases equal
  | bool b =>
    cases v with
    | bool a =>
      obtain rfl : a = b := eq_of_beq equal
      rfl
    | _ => cases equal
  | string s =>
    cases v with
    | string t =>
      obtain rfl : t = s := eq_of_beq equal
      rfl
    | _ => cases equal
  | number n =>
    cases v with
    | number m =>
      cases u with
      | number k => exact Number.same_left equal k
      | _ => rfl
    | _ => cases equal

lemma regroup_leaves (middle : v.shape = .leaf) (last : w.shape = .leaf) (u : Json) :
    ((mergeDeep u v).bind fun merged => mergeDeep merged w) =
      (mergeDeep v w).bind (mergeDeep u) := by
  rw [mergeDeep_leaf middle, mergeDeep_leaf last]
  by_cases equal : v.same w
  · rw [if_pos equal, Option.bind_some, mergeDeep_leaf last, same_left last equal]
    by_cases first : u.same w
    · rw [if_pos first, if_pos first, Option.bind_some, mergeDeep_leaf last, if_pos equal]
    · rw [if_neg first, if_neg first, Option.bind_none]
  · rw [if_neg equal, Option.bind_none, Option.bind_eq_none_iff]
    intro merged made
    obtain ⟨-, same⟩ := Option.ite_none_right_eq_some.mp made
    obtain rfl := Option.some.inj same
    rw [mergeDeep_leaf last, if_neg equal]

/-- What becomes of the value of a field, given the one that is there. -/
def mergeValue (old : Option Json) (v : Json) : Option Json :=
  old.elim (some v) fun into => mergeDeep into v

lemma mergeFields_eq (into fields : Fields Json) :
    mergeFields into fields = Fields.mergeWith? mergeValue into fields := by
  induction fields generalizing into with
  | nil => rfl
  | cons field rest ih =>
    obtain ⟨key, v⟩ := field
    rw [mergeFields, Fields.mergeWith?]
    cases Fields.get? key into with
    | none => exact ih _
    | some old => exact congrArg (Option.bind (mergeDeep old v)) (funext fun w => ih _)

lemma regroups_mergeValue {given : Option Json} {later : Json}
    (each : ∀ v ∈ given, ∀ u, ((mergeDeep u v).bind fun merged => mergeDeep merged later) =
      (mergeDeep v later).bind (mergeDeep u)) : Fields.Regroups mergeValue given later := by
  intro old
  cases given with
  | none => rfl
  | some v =>
    cases old with
    | none => exact Option.bind_fun_some _
    | some u => exact (each v rfl u).symm

/-- Objects regroup when the values under each name do. -/
lemma regroup_records {between fields : Fields Json} (nodup : (Fields.names between).Nodup)
    (nodup' : (Fields.names fields).Nodup)
    (each : ∀ field ∈ fields,
      Fields.Regroups mergeValue (Fields.get? field.1 between) field.2) (into : Fields Json) :
    ((mergeDeep (.object into) (.object between)).bind fun merged =>
      mergeDeep merged (.object fields)) =
        (mergeDeep (.object between) (.object fields)).bind (mergeDeep (.object into)) := by
  have regrouped : ((mergeFields into between).bind fun merged => mergeFields merged fields) =
      (mergeFields between fields).bind fun merged => mergeFields into merged := by
    simp only [mergeFields_eq]
    exact Fields.mergeWith?_assoc nodup nodup' each into
  simp only [mergeDeep, Option.bind_map]
  calc (mergeFields into between).bind (fun merged => (mergeFields merged fields).map object)
      = ((mergeFields into between).bind fun merged => mergeFields merged fields).map object :=
        Option.map_bind.symm
    _ = ((mergeFields between fields).bind fun merged => mergeFields into merged).map object := by
        rw [regrouped]
    _ = (mergeFields between fields).bind fun merged => (mergeFields into merged).map object :=
        Option.map_bind

/-- Deep merges do not depend on the grouping: one grouping is defined when the other one is, and
gives the same value, with its keys and items in the same order. -/
theorem deep_merges_regroup {middle last : Json} (keyed : middle.Keyed) (keyed' : last.Keyed)
    (first : Json) :
    ((mergeDeep first middle).bind fun merged => mergeDeep merged last) =
      (mergeDeep middle last).bind (mergeDeep first) := by
  induction last using Json.induct generalizing first middle with
  | step last ih =>
    by_cases fits : middle.shape = last.shape
    · by_cases fits' : first.shape = middle.shape
      · cases shape : last.shape with
        | leaf => exact regroup_leaves (fits.trans shape) shape first
        | list =>
          obtain ⟨items, rfl⟩ := exists_of_shape_list shape
          obtain ⟨between, rfl⟩ := exists_of_shape_list fits
          obtain ⟨into, rfl⟩ := exists_of_shape_list fits'
          simp only [mergeDeep, Option.bind_some, List.append_assoc]
        | record =>
          obtain ⟨fields, rfl⟩ := exists_of_shape_record shape
          obtain ⟨between, rfl⟩ := exists_of_shape_record fits
          obtain ⟨into, rfl⟩ := exists_of_shape_record fits'
          have each : ∀ field ∈ fields,
              Fields.Regroups mergeValue (Fields.get? field.1 between) field.2 := by
            intro field mem
            refine regroups_mergeValue fun v found u => ?_
            have inside : (field.1, v) ∈ between := Fields.mem_of_get? found
            exact ih field.2 (List.mem_map_of_mem mem) (keyed.fields _ inside)
              (keyed'.fields field mem) u
          exact regroup_records keyed.nodup keyed'.nodup each into
      · rw [mergeDeep_of_shape_ne fits', Option.bind_none, eq_comm, Option.bind_eq_none_iff]
        intro merged made
        refine mergeDeep_of_shape_ne ?_
        rwa [shape_mergeDeep made, ← fits]
    · rw [mergeDeep_of_shape_ne fits, Option.bind_none, Option.bind_eq_none_iff]
      intro merged made
      refine mergeDeep_of_shape_ne ?_
      rwa [shape_mergeDeep made]

/-- Notes on a route from three hands: the last one has the negative zero. -/
theorem route_notes_regroup :
    let first := object [("stops", strings ["quay"]), ("fare", object [("adult", whole 3)])]
    let middle := object [("fare", object [("child", number (.double (.zero false)))])]
    let last := object [("open", bool true), ("stops", strings ["hill"]),
      ("fare", object [("child", number (.double (.zero true)))])]
    middle.Keyed ∧ last.Keyed ∧
      (mergeDeep middle last).bind (mergeDeep first) =
        some (object [("stops", strings ["quay", "hill"]),
          ("fare", object [("adult", whole 3), ("child", number (.double (.zero true)))]),
          ("open", bool true)]) := by
  intro first middle last
  have fare (d : Double) : (object [("child", number (.double d))]).Keyed := by
    refine .object (by simp [Fields.names]) fun field mem => ?_
    obtain rfl := List.mem_singleton.mp mem
    exact .number _
  have keyed : middle.Keyed := by
    refine .object (by decide) fun field mem => ?_
    obtain rfl := List.mem_singleton.mp mem
    exact fare _
  have keyed' : last.Keyed := by
    refine .object (by decide) (List.forall_mem_cons.mpr ⟨.bool true, ?_⟩)
    refine List.forall_mem_cons.mpr ⟨.array ?_, List.forall_mem_singleton.mpr (fare _)⟩
    exact List.forall_mem_singleton.mpr (.string "hill")
  exact ⟨keyed, keyed', (deep_merges_regroup keyed keyed' first).symm.trans rfl⟩

end Json

end EventContracts
