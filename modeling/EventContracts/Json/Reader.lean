import EventContracts.Json.Written
import EventContracts.Json.Numeral

/-!
# Reading JSON text

A text is cut into tokens by an automaton that looks at one character at a time, and the tokens are
put together on a stack of open containers. Both passes are folds, so reading ends on every text.
-/

namespace EventContracts.Json

inductive Token where
  | openArray
  | closeArray
  | openObject
  | closeObject
  | comma
  | colon
  | atom (value : Written)

namespace Token

/-- What the characters read so far have started. Gathered parts are in reverse order. -/
inductive Mode where
  | between
  | word (letters : List Char)
  | numeral (chars : List Char)
  | quoted (units : List Nat)
  | escape (units : List Nat)
  | hex (units : List Nat) (missing : Nat) (unit : Nat)

/-- Whether a number is the leading half of a surrogate pair. -/
def isLeading (unit : Nat) : Bool := 0xD800 ≤ unit && unit < 0xDC00

/-- Whether a number is the trailing half of a surrogate pair. -/
def isTrailing (unit : Nat) : Bool := 0xDC00 ≤ unit && unit < 0xE000

/-- The characters of a list of code points in which surrogate pairs are still in two halves; none
when a half stands alone. -/
def joinUnits : List Nat → Option (List Char)
  | [] => some []
  | [u] => if isLeading u || isTrailing u then none else some [Char.ofNat u]
  | u :: v :: rest =>
    if isLeading u && isTrailing v then
      (joinUnits rest).map (Char.ofNat (0x10000 + (u - 0xD800) * 0x400 + (v - 0xDC00)) :: ·)
    else if isLeading u || isTrailing u then none
    else (joinUnits (v :: rest)).map (Char.ofNat u :: ·)

def isNumeral (c : Char) : Bool :=
  c.isDigit || c == '-' || c == '+' || c == '.' || c == 'e' || c == 'E'

def hexValue? (c : Char) : Option Nat :=
  if c.isDigit then some (c.toNat - 48)
  else if 'a' ≤ c ∧ c ≤ 'f' then some (c.toNat - 87)
  else if 'A' ≤ c ∧ c ≤ 'F' then some (c.toNat - 55)
  else none

/-- The character that an escape letter stands for. -/
def escaped? (c : Char) : Option Char :=
  match c with
  | '"' => some '"'
  | '\\' => some '\\'
  | '/' => some '/'
  | 'b' => some '\x08'
  | 'f' => some '\x0c'
  | 'n' => some '\n'
  | 'r' => some '\r'
  | 't' => some '\t'
  | _ => none

def ofWord? (letters : List Char) : Option Token :=
  if letters = ['t', 'r', 'u', 'e'] then some (atom (.bool true))
  else if letters = ['f', 'a', 'l', 's', 'e'] then some (atom (.bool false))
  else if letters = ['n', 'u', 'l', 'l'] then some (atom .null)
  else none

def ofNumeral? (chars : List Char) : Option Token :=
  (Number.literal? chars).map fun literal => atom (.number literal.number?)

/-- One character outside of words, numerals and texts. -/
def stepBetween (c : Char) : Option (List Token × Mode) :=
  match c with
  | ' ' | '\t' | '\n' | '\r' => some ([], .between)
  | '[' => some ([openArray], .between)
  | ']' => some ([closeArray], .between)
  | '\x7b' => some ([openObject], .between)
  | '\x7d' => some ([closeObject], .between)
  | ',' => some ([comma], .between)
  | ':' => some ([colon], .between)
  | '"' => some ([], .quoted [])
  | c =>
    if c.isDigit || c == '-' then some ([], .numeral [c])
    else if c.isLower then some ([], .word [c])
    else none

/-- One character: the tokens that it ends, and what goes on. -/
def step : Mode → Char → Option (List Token × Mode)
  | .between, c => stepBetween c
  | .word letters, c =>
    if c.isLower then some ([], .word (c :: letters))
    else do
      let token ← ofWord? letters.reverse
      let (more, mode) ← stepBetween c
      return (token :: more, mode)
  | .numeral chars, c =>
    if isNumeral c then some ([], .numeral (c :: chars))
    else do
      let token ← ofNumeral? chars.reverse
      let (more, mode) ← stepBetween c
      return (token :: more, mode)
  | .quoted units, c =>
    if c = '"' then
      some ([atom (.text ((joinUnits units.reverse).map String.ofList))], .between)
    else if c = '\\' then some ([], .escape units)
    else if c.toNat < 32 then none
    else some ([], .quoted (c.toNat :: units))
  | .escape units, c =>
    if c = 'u' then some ([], .hex units 4 0)
    else (escaped? c).map fun e => ([], .quoted (e.toNat :: units))
  | .hex units missing unit, c => do
    let digit ← hexValue? c
    let unit := unit * 16 + digit
    return ([], if missing ≤ 1 then .quoted (unit :: units) else .hex units (missing - 1) unit)

def finish : Mode → Option (List Token)
  | .between => some []
  | .word letters => (ofWord? letters.reverse).map ([·])
  | .numeral chars => (ofNumeral? chars.reverse).map ([·])
  | _ => none

/-- The tokens of a text from a mode on, put after the reversed tokens found so far. -/
def scanFrom : Mode → List Token → List Char → Option (List Token)
  | mode, found, [] => (finish mode).map fun last => found.reverse ++ last
  | mode, found, c :: rest =>
    match step mode c with
    | some (tokens, mode) => scanFrom mode (tokens.reverse ++ found) rest
    | none => none

/-- The tokens of a text; none when it has a part that is no token. -/
def scan (text : String) : Option (List Token) := scanFrom .between [] text.toList

end Token

/-- A container that is not closed yet, with its parts in reverse order. -/
inductive Open where
  | array (items : List Written)
  | object (fields : List (Option String × Written)) (key : Option String)

/-- What may come next. -/
inductive Expecting where
  | value
  | valueOrClose
  | key
  | keyOrClose
  | colon
  | separator
  | nothing

/-- The state of putting tokens together. -/
structure Assembly where
  stack : List Open
  expecting : Expecting
  result : Option Written

namespace Assembly

def maxDepth : Nat := 127

/-- Hand a finished value to the container around it. -/
def complete (stack : List Open) (v : Written) : Assembly :=
  match stack with
  | [] => ⟨[], .nothing, some v⟩
  | .array items :: outer => ⟨.array (v :: items) :: outer, .separator, none⟩
  | .object fields key :: outer => ⟨.object ((key, v) :: fields) none :: outer, .separator, none⟩

def enter (stack : List Open) (container : Open) (expecting : Expecting) : Option Assembly :=
  if stack.length < maxDepth then some ⟨container :: stack, expecting, none⟩ else none

def beginValue (stack : List Open) : Token → Option Assembly
  | .atom v => some (complete stack v)
  | .openArray => enter stack (.array []) .valueOrClose
  | .openObject => enter stack (.object [] none) .keyOrClose
  | _ => none

def beginField (stack : List Open) : Token → Option Assembly
  | .atom (.text key) => match stack with
    | .object fields _ :: outer => some ⟨.object fields key :: outer, .colon, none⟩
    | _ => none
  | _ => none

/-- Close the innermost container, if the token closes one of its kind. -/
def close (stack : List Open) : Token → Option Assembly
  | .closeArray => match stack with
    | .array items :: outer => some (complete outer (.array items.reverse))
    | _ => none
  | .closeObject => match stack with
    | .object fields _ :: outer => some (complete outer (.object fields.reverse))
    | _ => none
  | _ => none

/-- Put one token in its place. -/
def step (state : Assembly) (token : Token) : Option Assembly :=
  match state.expecting, token with
  | .value, token => beginValue state.stack token
  | .valueOrClose, .closeArray => close state.stack .closeArray
  | .valueOrClose, token => beginValue state.stack token
  | .key, token => beginField state.stack token
  | .keyOrClose, .closeObject => close state.stack .closeObject
  | .keyOrClose, token => beginField state.stack token
  | .colon, .colon => some { state with expecting := .value }
  | .separator, .comma => match state.stack with
    | .array _ :: _ => some { state with expecting := .value }
    | .object .. :: _ => some { state with expecting := .key }
    | [] => none
  | .separator, token => close state.stack token
  | _, _ => none

end Assembly

/-- The document tree of a text; none when the text is no JSON. -/
def Written.ofText? (text : String) : Option Written := do
  let tokens ← Token.scan text
  let state ← tokens.foldlM Assembly.step ⟨[], .value, none⟩
  state.result

/-- The value of a text; none when the text is no JSON or has a part without value. -/
def parse? (text : String) : Option Json := (Written.ofText? text).bind Written.value?

end EventContracts.Json
