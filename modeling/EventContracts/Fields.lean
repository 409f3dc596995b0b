/-!
# Ordered fields

A finite map from names to values that remembers the order in which the names first appeared.
Setting a name that is already there changes its value in place; a new name goes to the end.
-/

namespace EventContracts

/-- Named values in the order in which the names were first given. -/
abbrev Fields (α : Type) := List (String × α)

namespace Fields

variable {α : Type}

/-- The value under a name, if the name is there. -/
def get? (name : String) : Fields α → Option α
  | [] => none
  | (key, value) :: rest => if key = name then some value else get? name rest

/-- Give a name a value: in place when the name is there, else at the end. -/
def set (name : String) (value : α) : Fields α → Fields α
  | [] => [(name, value)]
  | (key, old) :: rest =>
    if key = name then (key, value) :: rest else (key, old) :: set name value rest

/-- The names, in order. -/
def names (fields : Fields α) : List String := List.map Prod.fst fields

def has (name : String) (fields : Fields α) : Bool := (get? name fields).isSome

/-- Set every field of the second map in the first one, in order. -/
def merge (fields : Fields α) (later : Fields α) : Fields α :=
  later.foldl (fun acc field => set field.1 field.2 acc) fields

/-- The map of a list of pairs: a repeated name keeps its first place and takes its last value. -/
def ofPairs (pairs : List (String × α)) : Fields α := merge [] pairs

@[simp] theorem get?_nil (name : String) : get? name ([] : Fields α) = none := rfl

theorem get?_set (fields : Fields α) (name other : String) (value : α) :
    get? other (set name value fields) = if name = other then some value
      else get? other fields := by
  induction fields with
  | nil => simp [set, get?]
  | cons field rest ih =>
    obtain ⟨key, old⟩ := field
    by_cases h : key = name <;> by_cases h' : key = other <;> grind [set, get?]

theorem names_set (fields : Fields α) (name : String) (value : α) :
    names (set name value fields) =
      if name ∈ names fields then names fields else names fields ++ [name] := by
  induction fields with
  | nil => simp [set, names]
  | cons field rest ih =>
    obtain ⟨key, old⟩ := field
    by_cases h : key = name
    · simp [set, names, h]
    · have h' : ¬ name = key := fun e => h e.symm
      simp only [set, h, if_false]
      simp only [names, List.map_cons] at ih ⊢
      rw [ih]
      by_cases hin : name ∈ List.map Prod.fst rest <;> simp [h', hin]

/-- The names stay pairwise different when one is set. -/
theorem names_set_nodup {fields : Fields α} (h : (names fields).Nodup) (name : String) (value : α) :
    (names (set name value fields)).Nodup := by
  rw [names_set]
  by_cases hin : name ∈ names fields
  · simpa [hin] using h
  · simp only [hin, if_false, List.nodup_append, List.mem_singleton]
    exact ⟨h, by simp, fun a ha b hb e => hin (hb ▸ e ▸ ha)⟩

end Fields

end EventContracts
