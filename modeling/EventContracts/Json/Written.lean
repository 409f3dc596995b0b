import EventContracts.Json.Value

/-!
# JSON documents as written

A document before it is read as a value: repeated keys are still there, and so are numbers and
texts that stand in the document but have no value. A reader that skips a part of the document
never looks at what is in it, so only the parts that are read have to have values.
-/

namespace EventContracts

/-- A document tree. A number is `none` when it lies beyond the doubles, a text when it holds half
of a surrogate pair. -/
inductive Json.Written where
  | null
  | bool (value : Bool)
  | number (value : Option Number)
  | text (value : Option String)
  | array (items : List Json.Written)
  | object (fields : List (Option String × Json.Written))
deriving Repr, Inhabited

namespace Json

namespace Written

mutual

/-- The value of a document tree: of repeated keys the last one counts, in the first one's place. -/
def value? : Written → Option Json
  | null => some .null
  | bool b => some (.bool b)
  | number n => n.map .number
  | text s => s.map .string
  | array items => (values? items).map .array
  | object fields => (fieldValues? fields).map fun pairs => .object (Fields.ofPairs pairs)
termination_by structural v => v

def values? : List Written → Option (List Json)
  | [] => some []
  | v :: rest => do
    let v ← value? v
    let rest ← values? rest
    return v :: rest
termination_by structural items => items

/-- The values of the fields of an object, repeated keys included. -/
def fieldValues? : List (Option String × Written) → Option (List (String × Json))
  | [] => some []
  | (key, v) :: rest => do
    let key ← key
    let v ← value? v
    let rest ← fieldValues? rest
    return (key, v) :: rest
termination_by structural fields => fields

end

end Written

mutual

def written : Json → Written
  | null => .null
  | bool b => .bool b
  | number n => .number (some n)
  | string s => .text (some s)
  | array items => .array (writtenItems items)
  | object fields => .object (writtenFields fields)
termination_by structural v => v

def writtenItems : List Json → List Written
  | [] => []
  | v :: rest => written v :: writtenItems rest
termination_by structural items => items

def writtenFields : List (String × Json) → List (Option String × Written)
  | [] => []
  | (key, v) :: rest => (some key, written v) :: writtenFields rest
termination_by structural fields => fields

end

end Json

end EventContracts
