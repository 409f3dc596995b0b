import EventContracts.Alias
import EventContracts.Proofs.FallibleSteps
import EventContracts.Proofs.OrderedFields
import Mathlib.Data.List.Nodup

/-! How an alias table grows. Reserving a fingerprint appends an entry with a new name; resolving
one replaces its definition in place. No name is ever given twice, and none is ever taken back. -/

namespace EventContracts.AliasTable

variable {α : Type}

/-- The fingerprints, in the order in which they were reserved. -/
def keys (table : AliasTable α) : List String := Fields.names table.entries

/-- The names, in the order in which they were given. -/
def names (table : AliasTable α) : List String := table.entries.map fun field => field.2.name

lemma get?_reserve (table : AliasTable α) (key other : String) (placeholder : α) :
    (table.reserve key placeholder).get? other =
      if key = other then some ⟨table.nextName, false, placeholder⟩ else table.get? other :=
  Fields.get?_set table.entries key other _

lemma get?_resolve {table : AliasTable α} {key : String} {entry : Alias α}
    (h : table.get? key = some entry) (definition : α) (other : String) :
    (table.resolve key definition).get? other =
      if key = other then some ⟨entry.name, true, definition⟩ else table.get? other := by
  simp only [resolve, h]
  exact Fields.get?_set table.entries key other _

lemma get?_of_nameOf? {table : AliasTable α} {key name : String}
    (h : table.nameOf? key = some name) :
    ∃ entry, table.get? key = some entry ∧ entry.name = name :=
  Option.map_eq_some_iff.mp h

lemma nameOf?_eq_none {table : AliasTable α} {key : String} :
    table.nameOf? key = none ↔ key ∉ table.keys :=
  Option.map_eq_none_iff.trans Fields.get?_eq_none

lemma mem_keys {table : AliasTable α} {key : String} :
    key ∈ table.keys ↔ ∃ name, table.nameOf? key = some name := by
  rw [← Option.isSome_iff_exists, Option.isSome_iff_ne_none, ne_eq, nameOf?_eq_none, not_not]

lemma nameOf?_reserve (table : AliasTable α) (key other : String) (placeholder : α) :
    (table.reserve key placeholder).nameOf? other =
      if key = other then some table.nextName else table.nameOf? other := by
  by_cases h : key = other <;> simp [nameOf?, get?_reserve, h]

@[simp] lemma nameOf?_resolve (table : AliasTable α) (key other : String) (definition : α) :
    (table.resolve key definition).nameOf? other = table.nameOf? other := by
  cases h : table.get? key with
  | none => simp [resolve, h]
  | some entry =>
    by_cases ho : key = other
    · subst ho
      simp [nameOf?, get?_resolve h, h]
    · simp [nameOf?, get?_resolve h, ho]

lemma entries_reserve {table : AliasTable α} {key : String} (h : table.nameOf? key = none)
    (placeholder : α) :
    (table.reserve key placeholder).entries =
      table.entries ++ [(key, ⟨table.nextName, false, placeholder⟩)] :=
  Fields.set_of_absent (Option.map_eq_none_iff.mp h) _

lemma keys_reserve {table : AliasTable α} {key : String} (h : table.nameOf? key = none)
    (placeholder : α) : (table.reserve key placeholder).keys = table.keys ++ [key] := by
  simp [keys, Fields.names, entries_reserve h]

lemma names_reserve {table : AliasTable α} {key : String} (h : table.nameOf? key = none)
    (placeholder : α) :
    (table.reserve key placeholder).names = table.names ++ [table.nextName] := by
  simp [names, entries_reserve h]

@[simp] lemma keys_resolve (table : AliasTable α) (key : String) (definition : α) :
    (table.resolve key definition).keys = table.keys := by
  cases h : table.get? key with
  | none => simp [resolve, h]
  | some entry =>
    have present : key ∈ Fields.names table.entries :=
      List.mem_map.mpr ⟨_, Fields.mem_of_get? h, rfl⟩
    simp [resolve, h, keys, Fields.names_set, present]

@[simp] lemma names_resolve (table : AliasTable α) (key : String) (definition : α) :
    (table.resolve key definition).names = table.names := by
  cases h : table.get? key with
  | none => simp [resolve, h]
  | some entry =>
    simp only [resolve, h, names]
    exact Fields.map_set_of_present Alias.name h rfl

@[simp] lemma stem_reserve (table : AliasTable α) (key : String) (placeholder : α) :
    (table.reserve key placeholder).stem = table.stem := rfl

@[simp] lemma stem_resolve (table : AliasTable α) (key : String) (definition : α) :
    (table.resolve key definition).stem = table.stem := by
  cases h : table.get? key <;> simp [resolve, h]

lemma length_keys (table : AliasTable α) : table.keys.length = table.entries.length := by
  simp [keys, Fields.names]

/-- The name that a table with this stem gives to the entry at a position. -/
def numberedName (stem : String) (position : Nat) : String := stem ++ toString (position + 1)

lemma numberedName_inj {stem : String} {i j : Nat} (h : numberedName stem i = numberedName stem j) :
    i = j := by
  have digits : Nat.toDigits 10 (i + 1) = Nat.toDigits 10 (j + 1) :=
    String.ofList_injective ((String.append_right_inj stem).mp h)
  have := congrArg (Nat.ofDigitChars 10 · 0) digits
  simp only [Nat.ofDigitChars_ten_toDigits] at this
  omega

/-- A table in which the fingerprints are pairwise different and the names count the entries. -/
structure Numbered (table : AliasTable α) : Prop where
  keys_nodup : table.keys.Nodup
  names_eq : table.names = (List.range table.entries.length).map (numberedName table.stem)

lemma Numbered.empty (stem : String) : ({ stem := stem } : AliasTable α).Numbered :=
  ⟨List.nodup_nil, rfl⟩

lemma Numbered.reserve {table : AliasTable α} (numbered : table.Numbered) {key : String}
    (h : table.nameOf? key = none) (placeholder : α) :
    (table.reserve key placeholder).Numbered := by
  constructor
  · rw [keys_reserve h]
    have fresh := nameOf?_eq_none.mp h
    exact List.nodup_append.mpr ⟨numbered.keys_nodup, by simp,
      fun a ha b hb e => fresh (List.mem_singleton.mp hb ▸ e ▸ ha)⟩
  · rw [names_reserve h, numbered.names_eq, entries_reserve h]
    simp [List.range_succ, numberedName, nextName]

lemma Numbered.resolve {table : AliasTable α} (numbered : table.Numbered) (key : String)
    (definition : α) : (table.resolve key definition).Numbered := by
  have count : (table.resolve key definition).entries.length = table.entries.length := by
    rw [← length_keys, keys_resolve, length_keys]
  exact ⟨by rw [keys_resolve]; exact numbered.keys_nodup,
    by rw [names_resolve, numbered.names_eq, count, stem_resolve]⟩

lemma Numbered.names_nodup {table : AliasTable α} (numbered : table.Numbered) :
    table.names.Nodup := by
  rw [numbered.names_eq]
  exact List.Nodup.map (fun _ _ => numberedName_inj) List.nodup_range

lemma Numbered.mem_names {table : AliasTable α} (numbered : table.Numbered) {name : String} :
    name ∈ table.names ↔ ∃ i < table.entries.length, numberedName table.stem i = name := by
  simp [numbered.names_eq]

lemma name_mem_names {table : AliasTable α} {key name : String}
    (h : table.nameOf? key = some name) : name ∈ table.names := by
  obtain ⟨entry, found, rfl⟩ := get?_of_nameOf? h
  exact List.mem_map.mpr ⟨_, Fields.mem_of_get? found, rfl⟩

lemma exists_key_of_mem_names {table : AliasTable α} (numbered : table.Numbered) {name : String}
    (h : name ∈ table.names) : ∃ key, table.nameOf? key = some name := by
  obtain ⟨⟨key, entry⟩, mem, rfl⟩ := List.mem_map.mp h
  exact ⟨key, by simp [nameOf?, get?, Fields.get?_of_mem numbered.keys_nodup mem]⟩

/-- Different fingerprints have different names. -/
lemma Numbered.key_inj {table : AliasTable α} (numbered : table.Numbered) {a b name : String}
    (ha : table.nameOf? a = some name) (hb : table.nameOf? b = some name) : a = b := by
  obtain ⟨x, hx, rfl⟩ := get?_of_nameOf? ha
  obtain ⟨y, hy, same⟩ := get?_of_nameOf? hb
  have := List.inj_on_of_nodup_map numbered.names_nodup (Fields.mem_of_get? hx)
    (Fields.mem_of_get? hy) same.symm
  exact (Prod.mk.inj this).1

/-- What is published under the name of an entry is the definition of that entry. -/
lemma Numbered.get?_definitions {table : AliasTable α} (numbered : table.Numbered) {key : String}
    {entry : Alias α} (h : table.get? key = some entry) :
    Fields.get? entry.name table.definitions = some entry.definition := by
  refine Fields.get?_of_mem ?_ (List.mem_map.mpr ⟨_, Fields.mem_of_get? h, rfl⟩)
  have same : Fields.names table.definitions = table.names := by
    simp [Fields.names, definitions, names]
  rw [same]
  exact numbered.names_nodup

/-- A later state of a table: it gives every name that the earlier one gives. -/
structure Extends (table later : AliasTable α) : Prop where
  stem : later.stem = table.stem
  kept : ∀ key name, table.nameOf? key = some name → later.nameOf? key = some name

lemma Extends.refl (table : AliasTable α) : table.Extends table := ⟨rfl, fun _ _ h => h⟩

lemma Extends.trans {a b c : AliasTable α} (ab : a.Extends b) (bc : b.Extends c) : a.Extends c :=
  ⟨bc.stem.trans ab.stem, fun key name h => bc.kept key name (ab.kept key name h)⟩

lemma Extends.absent {table later : AliasTable α} (ext : table.Extends later) {key : String}
    (h : later.nameOf? key = none) : table.nameOf? key = none := by
  cases found : table.nameOf? key with
  | none => rfl
  | some name =>
    rw [ext.kept key name found] at h
    cases h

lemma extends_reserve {table : AliasTable α} {key : String} (h : table.nameOf? key = none)
    (placeholder : α) : table.Extends (table.reserve key placeholder) := by
  refine ⟨rfl, ?_⟩
  intro other name found
  have hne : key ≠ other := by
    rintro rfl
    rw [h] at found
    cases found
  rw [nameOf?_reserve, if_neg hne]
  exact found

lemma extends_resolve (table : AliasTable α) (key : String) (definition : α) :
    table.Extends (table.resolve key definition) :=
  ⟨stem_resolve table key definition, fun other name h => by rw [nameOf?_resolve]; exact h⟩

/-- What a reserved fingerprint is called does not change any more. -/
lemma Extends.kept_reserved {table later : AliasTable α} {key : String} {placeholder : α}
    (ext : (table.reserve key placeholder).Extends later) :
    later.nameOf? key = some table.nextName :=
  ext.kept key _ (by rw [nameOf?_reserve, if_pos rfl])

/-- Whether a fingerprint is reserved and has no definition yet. -/
def Pending (table : AliasTable α) (key : String) : Prop :=
  ∃ entry, table.get? key = some entry ∧ entry.resolved = false

/-- Whether every entry has its definition. -/
def Complete (table : AliasTable α) : Prop := ∀ entry ∈ table.entries, entry.2.resolved = true

lemma Complete.not_pending {table : AliasTable α} (complete : table.Complete) (key : String) :
    ¬ table.Pending key := by
  rintro ⟨entry, found, provisional⟩
  have := complete _ (Fields.mem_of_get? found)
  rw [provisional] at this
  cases this

lemma complete_of_not_pending {table : AliasTable α} (numbered : table.Numbered)
    (h : ∀ key, ¬ table.Pending key) : table.Complete := by
  rintro ⟨key, entry⟩ mem
  by_contra provisional
  exact h key ⟨entry, Fields.get?_of_mem numbered.keys_nodup mem, by simpa using provisional⟩

lemma pending_reserve {table : AliasTable α} {key other : String} {placeholder : α}
    (h : (table.reserve key placeholder).Pending other) : other = key ∨ table.Pending other := by
  obtain ⟨entry, found, provisional⟩ := h
  rw [get?_reserve] at found
  by_cases e : key = other
  · exact .inl e.symm
  · rw [if_neg e] at found
    exact .inr ⟨entry, found, provisional⟩

lemma pending_resolve {table : AliasTable α} {key other : String} {definition : α}
    (h : (table.resolve key definition).Pending other) : table.Pending other ∧ other ≠ key := by
  obtain ⟨entry, found, provisional⟩ := h
  cases hk : table.get? key with
  | none =>
    have same : table.resolve key definition = table := by simp [resolve, hk]
    rw [same] at found
    refine ⟨⟨entry, found, provisional⟩, ?_⟩
    rintro rfl
    rw [hk] at found
    cases found
  | some old =>
    rw [get?_resolve hk] at found
    by_cases e : key = other
    · rw [if_pos e] at found
      obtain rfl := Option.some.inj found
      cases provisional
    · rw [if_neg e] at found
      exact ⟨⟨entry, found, provisional⟩, fun h => e h.symm⟩

section Making

variable {ε : Type} {m : Type → Type} [Monad m] [LawfulMonad m] {table : AliasTable α}
  {key name : String}

lemma make_known (found : table.nameOf? key = some name) (placeholder : α)
    (produce : ExceptT ε (StateT (AliasTable α) m) α) :
    make key placeholder produce table = pure (.ok name, table) := by
  simp only [make, bind_step, get_step, pure_bind, goOn, found, pure_step]

/-- What a production leaves behind: a definition resolves the entry that has got the name. -/
def settle (key name : String) : Except ε α × AliasTable α → Except ε String × AliasTable α
  | (.ok definition, middle) => (.ok name, middle.resolve key definition)
  | (.error cause, middle) => (.error cause, middle)

lemma make_absent (absent : table.nameOf? key = none) (placeholder : α)
    (produce : ExceptT ε (StateT (AliasTable α) m) α) :
    make key placeholder produce table =
      settle key table.nextName <$> produce (table.reserve key placeholder) := by
  simp only [make, bind_step, get_step, pure_bind, goOn, absent, modify_step]
  rw [map_eq_pure_bind]
  congr
  funext ⟨result, middle⟩
  cases result with
  | ok definition =>
    change ((modifyThe (AliasTable α) (·.resolve key definition) >>= fun _ => pure table.nextName :
      ExceptT ε (StateT (AliasTable α) m) String)) middle = _
    rw [bind_step, modify_step, pure_bind]
    rfl
  | error cause => rfl

end Making

end EventContracts.AliasTable
