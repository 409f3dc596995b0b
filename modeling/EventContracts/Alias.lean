import EventContracts.Fields

/-!
# Alias tables

Named definitions for schemas that are referred to. A fingerprint moves from absent to provisional
to resolved: its entry is reserved, with a placeholder, before its definition is produced, so that a
definition that mentions itself finds the entry and stops there. Entries are named by the order in
which they were reserved. What is done to the table while a definition is produced stays done when
producing it fails.
-/

namespace EventContracts

structure Alias (α : Type) where
  name : String
  resolved : Bool
  definition : α
deriving Repr

/-- Entries by fingerprint, in the order in which they were reserved. -/
structure AliasTable (α : Type) where
  stem : String
  entries : Fields (Alias α) := []
deriving Repr

namespace AliasTable

variable {α : Type}

def get? (table : AliasTable α) (fingerprint : String) : Option (Alias α) :=
  Fields.get? fingerprint table.entries

def nameOf? (table : AliasTable α) (fingerprint : String) : Option String :=
  (table.get? fingerprint).map Alias.name

/-- The name of the next entry. -/
def nextName (table : AliasTable α) : String := table.stem ++ toString (table.entries.length + 1)

def reserve (table : AliasTable α) (fingerprint : String) (placeholder : α) : AliasTable α :=
  { table with
    entries := Fields.set fingerprint ⟨table.nextName, false, placeholder⟩ table.entries }

/-- Give an entry its definition. Without an entry nothing changes. -/
def resolve (table : AliasTable α) (fingerprint : String) (definition : α) : AliasTable α :=
  match table.get? fingerprint with
  | some entry =>
    { table with entries := Fields.set fingerprint ⟨entry.name, true, definition⟩ table.entries }
  | none => table

def definitions (table : AliasTable α) : List (String × α) :=
  table.entries.map fun entry => (entry.2.name, entry.2.definition)

/-- A computation that may fail and that works on an alias table. -/
abbrev Action (α ε β : Type) := ExceptT ε (StateM (AliasTable α)) β

/-- The name for a fingerprint. If it has none yet, reserve one and produce its definition. -/
def make {m : Type → Type} [Monad m] [MonadStateOf (AliasTable α) m] (fingerprint : String)
    (placeholder : α) (produce : m α) : m String := do
  match (← getThe (AliasTable α)).nameOf? fingerprint with
  | some name => return name
  | none =>
    let name := (← getThe (AliasTable α)).nextName
    modifyThe (AliasTable α) (·.reserve fingerprint placeholder)
    let definition ← produce
    modifyThe (AliasTable α) (·.resolve fingerprint definition)
    return name

end AliasTable

end EventContracts
