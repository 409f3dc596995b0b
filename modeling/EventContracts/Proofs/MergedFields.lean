import EventContracts.Proofs.OrderedFields
import Mathlib.Tactic.Lemma

/-! Maps that are merged value by value. Every field of the later map is put in with what is made of
its value and of the one that is there under its name, and the merge may be refused. Three maps give
the same in either grouping, the order of their fields included, when the values under each name
do. -/

namespace EventContracts.Fields

variable {α : Type} {f : Option α → α → Option α} {into fields : Fields α} {name : String}

/-- Merge fields into a map, where `f` says what becomes of a value, given the one that is there. -/
def mergeWith? (f : Option α → α → Option α) (into : Fields α) : Fields α → Option (Fields α)
  | [] => some into
  | (key, v) :: rest => (f (get? key into) v).bind fun w => mergeWith? f (set key w into) rest

/-- Whether a value that comes after another one, if there is any, can be merged with it first. -/
def Regroups (f : Option α → α → Option α) (given : Option α) (later : α) : Prop :=
  ∀ old, (f given later).bind (f old) =
    given.elim (f old later) fun v => (f old v).bind fun w => f (some w) later

lemma set_set (name : String) (v w : α) (fields : Fields α) :
    set name w (set name v fields) = set name w fields := by
  induction fields with
  | nil => simp [set]
  | cons field rest ih =>
    obtain ⟨key, old⟩ := field
    by_cases h : key = name
    · simp [set, h]
    · simp [set, h, ih]

/-- A name that is there can be set before or after another one: it keeps its place. -/
lemma set_comm {other : String} (different : name ≠ other) (v w : α)
    (present : name ∈ names fields) :
    set name v (set other w fields) = set other w (set name v fields) := by
  induction fields with
  | nil => cases present
  | cons field rest ih =>
    obtain ⟨key, old⟩ := field
    by_cases h : key = name
    · subst h
      simp [set, different]
    · have later : name ∈ names rest := (List.mem_cons.mp present).resolve_left (Ne.symm h)
      by_cases h' : key = other
      · subst h'
        simp [set, h]
      · simp [set, h, h', ih later]

/-- A name that is there and not in the later map can be set before or after the merge. -/
lemma mergeWith?_set_into (present : name ∈ names into) (absent : name ∉ names fields) (v : α) :
    mergeWith? f (set name v into) fields = (mergeWith? f into fields).map (set name v) := by
  induction fields generalizing into with
  | nil => rfl
  | cons field rest ih =>
    obtain ⟨key, w⟩ := field
    obtain ⟨different, absent⟩ := not_or.mp (fun mem => absent (List.mem_cons.mpr mem))
    rw [mergeWith?, mergeWith?, get?_set, if_neg different, Option.map_bind]
    refine congrArg _ (funext fun u => ?_)
    rw [Function.comp_apply, ← ih (mem_names_set.mpr (.inl present)) absent,
      set_comm different _ _ present]

lemma mem_names_mergeWith? {merged : Fields α} (h : mergeWith? f into fields = some merged) :
    name ∈ names merged ↔ name ∈ names into ∨ name ∈ names fields := by
  induction fields generalizing into with
  | nil =>
    obtain rfl := Option.some.inj h
    exact (or_iff_left List.not_mem_nil).symm
  | cons field rest ih =>
    obtain ⟨w, -, h⟩ := Option.bind_eq_some_iff.mp h
    rw [ih h, mem_names_set, or_assoc]
    exact or_congr_right List.mem_cons.symm

lemma names_mergeWith?_nodup {merged : Fields α} (nodup : (names into).Nodup)
    (h : mergeWith? f into fields = some merged) : (names merged).Nodup := by
  induction fields generalizing into with
  | nil =>
    obtain rfl := Option.some.inj h
    exact nodup
  | cons field rest ih =>
    obtain ⟨w, -, h⟩ := Option.bind_eq_some_iff.mp h
    exact ih (names_set_nodup nodup field.1 w) h

/-- What stands under a name after a merge: what was there, unless the later map has the name
too. -/
lemma get?_mergeWith? {merged : Fields α} (nodup : (names fields).Nodup)
    (h : mergeWith? f into fields = some merged) (name : String) :
    get? name merged = (get? name fields).elim (get? name into) (f (get? name into)) := by
  induction fields generalizing into with
  | nil =>
    obtain rfl := Option.some.inj h
    rfl
  | cons field rest ih =>
    obtain ⟨key, v⟩ := field
    obtain ⟨fresh, nodup⟩ := List.nodup_cons.mp nodup
    obtain ⟨w, first, h⟩ := Option.bind_eq_some_iff.mp h
    rw [ih nodup h, get?_set, get?]
    by_cases same : key = name
    · subst same
      rw [get?_eq_none.mpr fresh, if_pos rfl, if_pos rfl]
      exact first.symm
    · rw [if_neg same, if_neg same]

/-- What a further value does to a name of the later map before the merge it does to the result of
the merge. -/
lemma mergeWith?_set (nodup : (names fields).Nodup) {v : α}
    (regroups : Regroups f (get? name fields) v) (into : Fields α) :
    ((f (get? name fields) v).bind fun w => mergeWith? f into (set name w fields)) =
      (mergeWith? f into fields).bind fun merged =>
        (f (get? name merged) v).map fun w => set name w merged := by
  induction fields generalizing into with
  | nil =>
    have once : ((f none v).bind fun w => f (get? name into) w) = f (get? name into) v :=
      regroups (get? name into)
    simp only [set, mergeWith?, get?_nil, Option.bind_some, ← once, Option.map_eq_bind,
      Option.bind_assoc]
    rfl
  | cons field rest ih =>
    obtain ⟨key, first⟩ := field
    obtain ⟨fresh, nodup⟩ := List.nodup_cons.mp nodup
    by_cases same : key = name
    · subst same
      rw [get?, if_pos rfl] at regroups ⊢
      have once : ((f (some first) v).bind fun w => f (get? key into) w) =
          (f (get? key into) first).bind fun w => f (some w) v := regroups (get? key into)
      simp only [set, if_true, mergeWith?]
      rw [← Option.bind_assoc, once, Option.bind_assoc, Option.bind_assoc]
      refine congrArg _ (funext fun w => ?_)
      have kept (u : α) : mergeWith? f (set key u into) rest =
          (mergeWith? f (set key w into) rest).map (set key u) := by
        rw [← mergeWith?_set_into (mem_names_set.mpr (.inr rfl)) fresh, set_set]
      cases rested : mergeWith? f (set key w into) rest with
      | none =>
        have nowhere (u : α) : mergeWith? f (set key u into) rest =
            none := by rw [kept, rested]; rfl
        simp only [nowhere, Option.bind_fun_none, Option.bind_none]
      | some merged =>
        have changed (u : α) : mergeWith? f (set key u into) rest = some (set key u merged) := by
          rw [kept, rested]; rfl
        have found : get? key merged = some w := by
          rw [get?_mergeWith? nodup rested, get?_eq_none.mpr fresh, get?_set, if_pos rfl]
          rfl
        simp only [changed, Option.bind_some, found, Option.map_eq_bind]
        rfl
    · rw [get?, if_neg same] at regroups ⊢
      simp only [set, if_neg same, mergeWith?]
      rw [Option.bind_assoc, Option.bind_comm]
      exact congrArg _ (funext fun u => ih nodup regroups (set key u into))

/-- Three maps can be merged in either grouping when the values under each name can. -/
theorem mergeWith?_assoc {later : Fields α} (nodup : (names fields).Nodup)
    (nodup' : (names later).Nodup)
    (each : ∀ field ∈ later, Regroups f (get? field.1 fields) field.2) (into : Fields α) :
    ((mergeWith? f into fields).bind fun merged => mergeWith? f merged later) =
      (mergeWith? f fields later).bind (mergeWith? f into) := by
  induction later generalizing fields with
  | nil => simp [mergeWith?]
  | cons field rest ih =>
    obtain ⟨key, v⟩ := field
    obtain ⟨fresh, nodup'⟩ := List.nodup_cons.mp nodup'
    have others (w : α) : ∀ field ∈ rest, Regroups f (get? field.1 (set key w fields)) field.2 := by
      intro field mem
      have different : key ≠ field.1 := by
        rintro rfl
        exact fresh (List.mem_map.mpr ⟨field, mem, rfl⟩)
      rw [get?_set, if_neg different]
      exact each field (List.mem_cons_of_mem _ mem)
    calc ((mergeWith? f into fields).bind fun merged => mergeWith? f merged ((key, v) :: rest))
        = ((mergeWith? f into fields).bind fun merged =>
            (f (get? key merged) v).map fun w => set key w merged).bind
              fun merged => mergeWith? f merged rest := by
          simp only [mergeWith?, Option.bind_assoc, Option.bind_map]
          rfl
      _ = (f (get? key fields) v).bind fun w =>
            (mergeWith? f into (set key w fields)).bind fun merged => mergeWith? f merged rest := by
          rw [← mergeWith?_set nodup (each _ List.mem_cons_self), Option.bind_assoc]
      _ = (f (get? key fields) v).bind fun w =>
            (mergeWith? f (set key w fields) rest).bind (mergeWith? f into) :=
          congrArg _ (funext fun w => ih (names_set_nodup nodup key w) nodup' (others w))
      _ = (mergeWith? f fields ((key, v) :: rest)).bind (mergeWith? f into) := by
          rw [mergeWith?, Option.bind_assoc]

/-- Without anything to make of two values the later one counts. -/
lemma mergeWith?_later (into fields : Fields α) :
    mergeWith? (fun _ v => some v) into fields = some (merge into fields) := by
  induction fields generalizing into with
  | nil => rfl
  | cons field rest ih => exact ih (set field.1 field.2 into)

lemma merge_assoc {later : Fields α} (nodup : (names fields).Nodup) (nodup' : (names later).Nodup)
    (into : Fields α) : merge (merge into fields) later = merge into (merge fields later) := by
  have regroups : ∀ field ∈ later,
      Regroups (fun (_ : Option α) v => some v) (get? field.1 fields) field.2 := by
    intro field _ old
    cases get? field.1 fields <;> rfl
  have either := mergeWith?_assoc nodup nodup' regroups into
  simpa only [mergeWith?_later, Option.bind_some, Option.some.injEq] using either

end EventContracts.Fields
