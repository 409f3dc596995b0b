import EventContracts.Fields
import Mathlib.Data.List.Perm.Subperm

/-! Laws of ordered fields: lookups, the place of a name that is set, and maps over the values. A
name that is absent is appended; one that is present keeps its place. -/

namespace EventContracts.Fields

variable {α β : Type}

lemma get?_eq_none {name : String} {fields : Fields α} :
    get? name fields = none ↔ name ∉ names fields := by
  induction fields with
  | nil => simp [names]
  | cons field rest ih =>
    obtain ⟨key, value⟩ := field
    by_cases h : key = name
    · simp [get?, names, h]
    · have h' : ¬ name = key := fun e => h e.symm
      simpa [get?, names, h, h'] using ih

lemma mem_of_get? {name : String} {value : α} {fields : Fields α}
    (h : get? name fields = some value) : (name, value) ∈ fields := by
  induction fields with
  | nil => cases h
  | cons field rest ih =>
    obtain ⟨key, other⟩ := field
    by_cases hk : key = name
    · have hv : other = value := by simpa [get?, hk] using h
      rw [hk, hv]
      exact List.mem_cons_self
    · exact List.mem_cons_of_mem _ (ih (by simpa [get?, hk] using h))

lemma get?_of_mem {name : String} {value : α} {fields : Fields α} (nodup : (names fields).Nodup)
    (h : (name, value) ∈ fields) : get? name fields = some value := by
  induction fields with
  | nil => cases h
  | cons field rest ih =>
    obtain ⟨key, other⟩ := field
    obtain ⟨fresh, nodup⟩ := List.nodup_cons.mp nodup
    rcases List.mem_cons.mp h with h | h
    · obtain ⟨rfl, rfl⟩ := Prod.mk.inj h
      simp [get?]
    · have hne : key ≠ name := by
        rintro rfl
        exact fresh (List.mem_map.mpr ⟨_, h, rfl⟩)
      simpa [get?, hne] using ih nodup h

lemma set_of_absent {name : String} {fields : Fields α} (h : get? name fields = none) (value : α) :
    set name value fields = fields ++ [(name, value)] := by
  induction fields with
  | nil => rfl
  | cons field rest ih =>
    obtain ⟨key, other⟩ := field
    by_cases hk : key = name
    · simp [get?, hk] at h
    · have hr : get? name rest = none := by simpa [get?, hk] using h
      simp [set, hk, ih hr]

lemma mem_of_mem_set {name : String} {value : α} {fields : Fields α} {field : String × α}
    (h : field ∈ set name value fields) : field = (name, value) ∨ field ∈ fields := by
  induction fields with
  | nil => exact .inl (List.mem_singleton.mp h)
  | cons first rest ih =>
    obtain ⟨key, old⟩ := first
    by_cases hk : key = name
    · rw [set, if_pos hk, hk] at h
      rcases List.mem_cons.mp h with h | h
      · exact .inl h
      · exact .inr (List.mem_cons_of_mem _ h)
    · rw [set, if_neg hk] at h
      rcases List.mem_cons.mp h with h | h
      · exact .inr (h ▸ List.mem_cons_self)
      · rcases ih h with h | h
        · exact .inl h
        · exact .inr (List.mem_cons_of_mem _ h)

lemma mem_names_set {name other : String} {value : α} {fields : Fields α} :
    other ∈ names (set name value fields) ↔ other ∈ names fields ∨ other = name := by
  rw [names_set]
  split <;> grind

/-- Setting a name in place changes nothing that does not look at the value. -/
lemma map_set_of_present {name : String} {fields : Fields α} {old new : α} (g : α → β)
    (h : get? name fields = some old) (same : g new = g old) :
    (set name new fields).map (fun field => g field.2) = fields.map fun field => g field.2 := by
  induction fields with
  | nil => cases h
  | cons field rest ih =>
    obtain ⟨key, other⟩ := field
    by_cases hk : key = name
    · have ho : other = old := by simpa [get?, hk] using h
      simp [set, hk, same, ho]
    · have hr : get? name rest = some old := by simpa [get?, hk] using h
      simpa [set, hk] using ih hr

/-- The same names with other values. -/
def mapValues (g : α → β) (fields : Fields α) : Fields β :=
  fields.map fun field => (field.1, g field.2)

lemma set_mapValues (g : α → β) (name : String) (value : α) (fields : Fields α) :
    set name (g value) (mapValues g fields) = mapValues g (set name value fields) := by
  induction fields with
  | nil => rfl
  | cons field rest ih =>
    obtain ⟨key, old⟩ := field
    by_cases h : key = name
    · simp [mapValues, set, h]
    · simpa [mapValues, set, h] using ih

lemma merge_mapValues (g : α → β) (later fields : Fields α) :
    merge (mapValues g fields) (mapValues g later) = mapValues g (merge fields later) := by
  induction later generalizing fields with
  | nil => rfl
  | cons field rest ih =>
    have step := ih (set field.1 field.2 fields)
    rw [← set_mapValues] at step
    exact step

lemma ofPairs_mapValues (g : α → β) (pairs : List (String × α)) :
    ofPairs (mapValues g pairs) = mapValues g (ofPairs pairs) :=
  merge_mapValues g pairs []

lemma merge_append (fields first second : Fields α) :
    merge fields (first ++ second) = merge (merge fields first) second := List.foldl_append

lemma ofPairs_append (first second : List (String × α)) :
    ofPairs (first ++ second) = merge (ofPairs first) second := merge_append [] first second

lemma names_merge_nodup {fields : Fields α} (nodup : (names fields).Nodup)
    (later : Fields α) : (names (merge fields later)).Nodup := by
  induction later generalizing fields with
  | nil => exact nodup
  | cons field rest ih => exact ih (names_set_nodup nodup field.1 field.2)

lemma mem_names_merge {fields later : Fields α} {name : String} :
    name ∈ names (merge fields later) ↔ name ∈ names fields ∨ name ∈ names later := by
  induction later generalizing fields with
  | nil => simp [merge, names]
  | cons field rest ih =>
    have step : merge fields (field :: rest) = merge (set field.1 field.2 fields) rest := rfl
    have all : names (field :: rest) = field.1 :: names rest := rfl
    rw [step, ih, mem_names_set, all, List.mem_cons, or_assoc]

lemma mem_of_mem_merge {fields later : Fields α} {field : String × α}
    (h : field ∈ merge fields later) : field ∈ fields ∨ field ∈ later := by
  induction later generalizing fields with
  | nil => exact .inl h
  | cons first rest ih =>
    rcases ih h with mem | mem
    · rcases mem_of_mem_set mem with rfl | mem
      · exact .inr List.mem_cons_self
      · exact .inl mem
    · exact .inr (List.mem_cons_of_mem _ mem)

lemma get?_merge {fields later : Fields α} (nodup : (names later).Nodup) (name : String) :
    get? name (merge fields later) = (get? name later).or (get? name fields) := by
  induction later generalizing fields with
  | nil => rfl
  | cons field rest ih =>
    obtain ⟨key, v⟩ := field
    obtain ⟨fresh, others⟩ := List.nodup_cons.mp nodup
    change get? name (merge (set key v fields) rest) = _
    rw [ih others, get?_set, get?]
    by_cases same : key = name
    · subst same
      rw [if_pos rfl, if_pos rfl, get?_eq_none.mpr fresh]
      rfl
    · rw [if_neg same, if_neg same]

lemma mem_of_mem_ofPairs {pairs : List (String × α)} {field : String × α}
    (h : field ∈ ofPairs pairs) : field ∈ pairs :=
  (mem_of_mem_merge h).resolve_left List.not_mem_nil

lemma names_ofPairs_nodup (pairs : List (String × α)) : (names (ofPairs pairs)).Nodup :=
  names_merge_nodup (show (names ([] : Fields α)).Nodup from List.nodup_nil) pairs

lemma mem_names_ofPairs {pairs : List (String × α)} {name : String} :
    name ∈ names (ofPairs pairs) ↔ name ∈ names pairs :=
  mem_names_merge.trans (or_iff_right List.not_mem_nil)

/-- Pairs with different names are a map as they are. -/
lemma merge_of_nodup {fields later : Fields α} (nodup : (names (fields ++ later)).Nodup) :
    merge fields later = fields ++ later := by
  induction later generalizing fields with
  | nil => simp [merge]
  | cons field rest ih =>
    have fresh : get? field.1 fields = none := by
      rw [get?_eq_none]
      intro mem
      rw [names, List.map_append, List.nodup_append] at nodup
      exact nodup.2.2 _ mem _ (List.mem_map_of_mem List.mem_cons_self) rfl
    have step : merge fields (field :: rest) = merge (set field.1 field.2 fields) rest := rfl
    rw [step, set_of_absent fresh, ih, List.append_assoc, List.singleton_append]
    rwa [List.append_assoc]

lemma ofPairs_of_nodup {pairs : List (String × α)} (nodup : (names pairs).Nodup) :
    ofPairs pairs = pairs := merge_of_nodup nodup

/-- No pair gets lost if and only if the names are pairwise different. -/
lemma length_ofPairs {pairs : List (String × α)} :
    (ofPairs pairs).length = pairs.length ↔ (names pairs).Nodup := by
  constructor
  · intro same
    have kept := names_ofPairs_nodup pairs
    have subset : names (ofPairs pairs) ⊆ names pairs := fun name mem => mem_names_ofPairs.mp mem
    have perm : (names (ofPairs pairs)).Perm (names pairs) :=
      (kept.subperm subset).perm_of_length_le (by simp [names, same])
    exact perm.nodup_iff.mp kept
  · intro nodup
    rw [ofPairs_of_nodup nodup]

end EventContracts.Fields
