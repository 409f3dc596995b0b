import EventContracts.Document.SchemaObject

/-!
# Reading typed data

Configurations, manifests and documents are read from more than one format. What a format says
about a part of its text is given here as a handful of questions; what the data has to look like is
asked in terms of them, once for all formats.
-/

namespace EventContracts

/-- The questions that a format answers about a part of its text. Each answer is `none` when the
part is not what is asked for. -/
class Format (σ : Type) where
  /-- A text. -/
  text? : σ → Option String
  /-- A truth value. -/
  flag? : σ → Option Bool
  /-- A count. -/
  count? : σ → Option Nat
  /-- Any value. -/
  value? : σ → Option Json
  /-- Whether the part says that there is nothing. -/
  isAbsent? : σ → Option Bool
  /-- The parts of a list. -/
  list? : σ → Option (List σ)
  /-- The parts of a map, repeated names included. -/
  entries? : σ → Option (List (String × σ))
  /-- The parts with the given names, of which none may be repeated. -/
  record? : List String → σ → Option (Fields σ)

namespace Format

variable {σ : Type} [Format σ] {α : Type}

def listOf? (read : σ → Option α) (part : σ) : Option (List α) :=
  (list? part).bind fun parts => parts.mapM read

/-- A map of data: of repeated names the last one counts, in the first one's place. -/
def mapOf? (read : σ → Option α) (part : σ) : Option (Fields α) :=
  (entries? part).bind fun (entries : List (String × σ)) =>
    (entries.mapM fun entry => (read entry.2).map fun a => (entry.1, a)).map Fields.ofPairs

def required? (record : Fields σ) (name : String) (read : σ → Option α) : Option α :=
  (Fields.get? name record).bind read

def orDefault? (record : Fields σ) (name : String) (missing : α) (read : σ → Option α) : Option α :=
  match Fields.get? name record with
  | some part => read part
  | none => some missing

/-- A field that may be missing or say that there is nothing. -/
def optional? (record : Fields σ) (name : String) (read : σ → Option α) : Option (Option α) :=
  match Fields.get? name record with
  | some part => (isAbsent? part).bind fun absent => if absent then some none
    else (read part).map some
  | none => some none

end Format

/-- The fields with the given names. None of them may be repeated; other fields are left out. -/
def Fields.select? {α : Type} (names : List String) : List (String × α) → Option (Fields α)
  | [] => some []
  | (name, a) :: rest => do
    let more ← select? names rest
    if names.contains name then
      if Fields.has name more then none else some ((name, a) :: more)
    else some more

namespace Json.Written

/-- The entries of an object, repeated keys included. -/
def entries? : Written → Option (List (String × Written))
  | object fields => fields.mapM fun (name, v) => name.map fun name => (name, v)
  | _ => none

/-- A record: an object, or a list of the first of its fields. -/
def record? (names : List String) : Written → Option (Fields Written)
  | object fields => (entries? (object fields)).bind (Fields.select? names)
  | array items => if items.length ≤ names.length then some (names.zip items) else none
  | _ => none

instance : Format Written where
  text? := asText?
  flag?
    | bool b => some b
    | _ => none
  count? := asCount?
  value? := value?
  isAbsent?
    | null => some true
    | _ => some false
  list?
    | array items => some items
    | _ => none
  entries? := entries?
  record? := record?

end Json.Written

end EventContracts
