import EventContracts.Schema.Node

/-!
# Validation

What a schema makes of a value, which may be absent. Validation is defined by recursion on the
tree for any treatment of references; a second recursion, on the depth to which references may be
followed, gives references the schemas that they stand for. The depth counts nested references
only, so every validation that ends does so within some depth, and more depth changes nothing.
-/

namespace EventContracts

def wrongType {α : Type} (what : String) (received : Option Json) : Except Failure α :=
  Failure.refuse (.expected what received)

def checkLength (what : String) (length : Nat) (least most : Option Nat) : Except Failure Unit := do
  if let some least := least then
    if length < least then Failure.refuse (.tooShort what least)
  if let some most := most then
    if length > most then Failure.refuse (.tooLong what most)

namespace StringChecks

/-- The text that is checked: a text, or the JSON text of another value when it is coerced. -/
def subject (checks : StringChecks) : Option Json → Except Failure String
  | some (.string s) => .ok s
  | none => if checks.coerce then .ok "undefined" else wrongType "string" none
  | some other => if checks.coerce then .ok other.compact else wrongType "string" (some other)

def validate (patterns : PatternReader) (checks : StringChecks) (input : Option Json) :
    Except Failure Json := do
  let text ← checks.subject input
  checkLength "string" text.length checks.minLength checks.maxLength
  if let some format := checks.format then
    if !format.matchesText text then Failure.refuse (.format format.name)
  if let some pattern := checks.pattern then
    match patterns pattern with
    | none => Failure.refuse (.malformedPattern pattern)
    | some isIn => if !isIn text then Failure.refuse (.mismatch pattern)
  return .string text

end StringChecks

namespace NumberChecks

def coerced : Option Json → Option Double
  | some .null => some (.zero false)
  | some (.bool b) => if b then Double.ofInt? 1 else some (.zero false)
  | some (.number n) => n.toDouble?
  | some (.string s) =>
    let text := Text.trim s
    if text.isEmpty then some (.zero false)
    else (DecimalText.read text).bind DecimalText.toDouble?
  | _ => none

def subject (checks : NumberChecks) (input : Option Json) : Except Failure Double :=
  let number? : Except Failure (Option Double) := match input with
    | some (.number n) => .ok n.toDouble?
    | other => if checks.coerce then .ok (coerced other) else wrongType "number" other
  number?.bind fun
    | some d => .ok d
    | none => Failure.refuse .notFinite

def validate (checks : NumberChecks) (input : Option Json) : Except Failure Json := do
  let d ← checks.subject input
  if checks.whole && !d.isWhole then Failure.refuse .notWhole
  if checks.minimum.any (fun bound => d.less bound) ||
      checks.exclusiveMinimum.any (fun bound => d.atMost bound) then Failure.refuse .tooSmall
  if checks.maximum.any (fun bound => bound.less d) ||
      checks.exclusiveMaximum.any (fun bound => bound.atMost d) then Failure.refuse .tooBig
  return .number (.ofDouble d)

end NumberChecks

def validateBigint (coerce : Bool) : Option Json → Except Failure Json
  | some (.number (.whole n)) => .ok (.whole n)
  | some (.string s) =>
    if coerce then
      match DecimalText.readInt (Text.trim s) with
      | some n => if -Nat.pow 2 63 ≤ n ∧ n < Nat.pow 2 63 then .ok (.whole n)
        else Failure.refuse .notWholeText
      | none => Failure.refuse .notWholeText
    else wrongType "bigint" (some (.string s))
  | some (.bool b) =>
    if coerce then .ok (.whole (if b then 1 else 0)) else wrongType "bigint" (some (.bool b))
  | other => wrongType "bigint" other

namespace Json

def isTruthy : Option Json → Bool
  | none => false
  | some .null => false
  | some (.bool b) => b
  | some (.number n) => n.toDouble?.any fun d => d.mantissa != 0
  | some (.string s) => !s.isEmpty
  | some (.array _) => true
  | some (.object _) => true

end Json

def validateBoolean (coerce : Bool) : Option Json → Except Failure Json
  | some (.bool b) => .ok (.bool b)
  | other => if coerce then .ok (.bool (Json.isTruthy other)) else wrongType "boolean" other

/-- Validate a timestamp, and write it in universal time. -/
def validateDate (coerce : Bool) (input : Option Json) : Except Failure Json :=
  let instant? := match input with
    | some (.string s) => Instant.read s
    | some (.number (.whole n)) => if coerce then Instant.ofMilliseconds n else none
    | _ => none
  match instant? with
  | some t => .ok (.string t.text)
  | none => wrongType "date" input

/-- Validate the items of a list from a position on; an absent result becomes null. -/
def collectItems (f : Json → Outcome) : Nat → List Json → Except Failure (List Json)
  | _, [] => .ok []
  | position, v :: rest => do
    let item ← Failure.under (toString position) (f v)
    let items ← collectItems f (position + 1) rest
    return item.getD .null :: items

/-- One entry of a record: the key as a text, which may change it, and the value. -/
def recordEntry (key value : Option Json → Outcome) (found : Fields Json) (entry : String × Json) :
    Except Failure (Fields Json) := do
  let parsedKey ← Failure.under entry.1 (key (some (.string entry.1)))
  let name := match parsedKey with
    | some (.string s) => s
    | _ => entry.1
  match ← Failure.under entry.1 (value (some entry.2)) with
  | some v => return found.set name v
  | none => return found

/-- Put the results of the two sides of an intersection together: the fields of two objects, or one
of two equal results. -/
def mergeResults : Option Json → Option Json → Outcome
  | some (.object a), some (.object b) => .ok (some (.object (Fields.merge a b)))
  | some a, some b => if a.same b then .ok (some a) else Failure.refuse .unmergeable
  | none, none => .ok none
  | _, _ => Failure.refuse .unmergeable

namespace Effect

def apply (effect : Effect) (parsed : Option Json) : Outcome :=
  match effect with
  | transform t => (t.apply (parsed.getD .null)).map some
  | refine r => if r.check (parsed.getD .null) then .ok parsed
    else Failure.refuse (.refinement r.name)

end Effect

namespace Node

mutual

/-- Validate a value, given how references are validated. -/
def validateWith (patterns : PatternReader)
    (deref : String → Option Json → Outcome) : Node → Option Json → Outcome
  | mk kind _, input => match kind with
    | .string checks => (checks.validate patterns input).map some
    | .number checks => (checks.validate input).map some
    | .bigint coerce => (validateBigint coerce input).map some
    | .boolean coerce => (validateBoolean coerce input).map some
    | .date coerce => (validateDate coerce input).map some
    | .null => match input with
      | some .null => .ok (some .null)
      | other => wrongType "null" other
    | .any => .ok input
    | .unknown => .ok input
    | .void => match input with
      | none => .ok none
      | other => wrongType "void" other
    | .literal value => match input with
      | some v => if v.same value then .ok (some v) else Failure.refuse (.literal value)
      | none => Failure.refuse (.literal value)
    | .choice values => match input with
      | some (.string s) =>
        if values.contains s then .ok (some (.string s)) else Failure.refuse (.choice values)
      | _ => Failure.refuse (.choice values)
    | .array item minItems maxItems => match input with
      | some (.array values) => do
        checkLength "array" values.length minItems maxItems
        let items ← collectItems (fun v => validateWith patterns deref item (some v)) 0 values
        return some (.array items)
      | other => wrongType "array" other
    | .tuple items rest => match input with
      | some (.array values) =>
        if values.length < items.length || (rest.isNone && values.length > items.length) then
          Failure.refuse (.elementCount items.length values.length)
        else do
          let first ← validateItems patterns deref items 0 values
          let more ← match rest with
            | some rest =>
              collectItems (fun v => validateWith patterns deref rest (some v)) items.length
                (values.drop items.length)
            | none => .ok []
          return some (.array (first ++ more))
      | other => wrongType "tuple" other
    | .object shape => match input with
      | some (.object fields) => do
        let found ← validateShape patterns deref shape fields
        return some (.object found)
      | other => wrongType "object" other
    | .record key value => match input with
      | some (.object fields) => do
        let found ← fields.foldlM
          (recordEntry (fun v => validateWith patterns deref key v)
            (fun v => validateWith patterns deref value v)) []
        return some (.object found)
      | other => wrongType "record" other
    | .union options => validateFirst patterns deref options input
    | .taggedUnion _ options => validateFirst patterns deref options input
    | .intersection left right => do
      let a ← validateWith patterns deref left input
      let b ← validateWith patterns deref right input
      mergeResults a b
    | .optional inner => match input with
      | none => .ok none
      | some v => validateWith patterns deref inner (some v)
    | .nullable inner => match input with
      | some .null => .ok (some .null)
      | other => validateWith patterns deref inner other
    | .default inner value => validateWith patterns deref inner (some (input.getD value))
    | .fallback inner value => match validateWith patterns deref inner input with
      | .error (.invalid _) => .ok (some value)
      | result => result
    | .branded inner _ => validateWith patterns deref inner input
    | .readonly inner => validateWith patterns deref inner input
    | .effect inner effect => do
      let parsed ← validateWith patterns deref inner input
      effect.apply parsed
    | .preprocess inner transform => do
      let prepared ← transform.apply (input.getD .null)
      validateWith patterns deref inner (some prepared)
    | .pipeline first second => do
      let parsed ← validateWith patterns deref first input
      validateWith patterns deref second parsed
    | .reference _ target => deref target input
    | .function .. => Failure.refuse .function
    | .custom name => Failure.refuse (.noValidator name)
termination_by structural node => node

/-- Validate the first values of a list, each by the schema at its position. -/
def validateItems (patterns : PatternReader) (deref : String → Option Json → Outcome) :
    List Node → Nat → List Json → Except Failure (List Json)
  | node :: nodes, position, v :: values => do
    let item ← Failure.under (toString position) (validateWith patterns deref node (some v))
    let items ← validateItems patterns deref nodes (position + 1) values
    return item.getD .null :: items
  | _, _, _ => .ok []
termination_by structural nodes => nodes

/-- Validate the declared fields of an object, in the declared order; fields that are not declared
are dropped, and so are absent results. -/
def validateShape (patterns : PatternReader) (deref : String → Option Json → Outcome) :
    List (String × Node) → Fields Json → Except Failure (Fields Json)
  | [], _ => .ok []
  | (key, node) :: shape, fields => do
    let result ← Failure.under key (validateWith patterns deref node (Fields.get? key fields))
    let found ← validateShape patterns deref shape fields
    return match result with
      | some v => (key, v) :: found
      | none => found
termination_by structural shape => shape

/-- Validate by the first of several schemas that accepts. -/
def validateFirst (patterns : PatternReader)
    (deref : String → Option Json → Outcome) : List Node → Option Json → Outcome
  | [], _ => Failure.refuse .noMember
  | node :: nodes, input => match validateWith patterns deref node input with
    | .error (.invalid _) => validateFirst patterns deref nodes input
    | result => result
termination_by structural nodes => nodes

end

/-- Validate a value, following references to a depth. -/
def validate (patterns : PatternReader) (definitions : Definitions) :
    Nat → Node → Option Json → Outcome
  | 0, node, input =>
    validateWith patterns (fun _ _ => .error (.interrupted .unfinished)) node input
  | depth + 1, node, input =>
    validateWith patterns
      (fun target v => validate patterns definitions depth (definitions.resolve target) v)
      node input

end Node

def Outcome.accepted : Outcome → Except Interruption Bool
  | .ok _ => .ok true
  | .error (.invalid _) => .ok false
  | .error (.interrupted cause) => .error cause

/-- How deep references are followed in one validation, unless something else is asked for. -/
def Library.usualDepth : Nat := 5000

/-- Named schemas, how deep references among them are followed in one validation, and how patterns
are read. -/
structure Library where
  definitions : Definitions := []
  depth : Nat := Library.usualDepth
  patterns : PatternReader := Regex.reader

namespace Library

def validate (library : Library) (node : Node) (input : Option Json) : Outcome :=
  node.validate library.patterns library.definitions library.depth input

def acceptsAbsent (library : Library) (node : Node) : Except Interruption Bool :=
  (library.validate node none).accepted

def acceptsNull (library : Library) (node : Node) : Except Interruption Bool :=
  (library.validate node (some .null)).accepted

end Library

end EventContracts
