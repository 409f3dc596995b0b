import EventContracts.Json.Value
import EventContracts.Decimal.Notation

/-!
# JSON text

The compact form has no spaces. The indented form puts every item and field on a line of its own,
two spaces deeper than its container; empty containers stay on one line in both forms.
-/

namespace EventContracts

/-- Doubles in JSON text: positional from `0.00001` to just below `10^16`, and a sign on every
exponent. -/
def Json.numberStyle : NumberStyle := ⟨-4, 16, "+"⟩

def Number.text : Number → String
  | .whole n => toString n
  | .double d => Json.numberStyle.text d

namespace Json

def hexDigit (n : Nat) : Char := if n < 10 then Char.ofNat (48 + n) else Char.ofNat (87 + n)

/-- A character of a string literal: quotes, backslashes and control characters are escaped, all
others stand for themselves. -/
def escapeChar (c : Char) : List Char :=
  if c = '"' then ['\\', '"']
  else if c = '\\' then ['\\', '\\']
  else if c = '\n' then ['\\', 'n']
  else if c = '\r' then ['\\', 'r']
  else if c = '\t' then ['\\', 't']
  else if c = '\x08' then ['\\', 'b']
  else if c = '\x0c' then ['\\', 'f']
  else if c.toNat < 32 then
    ['\\', 'u', '0', '0', hexDigit (c.toNat / 16), hexDigit (c.toNat % 16)]
  else [c]

/-- A string literal, with its quotes. -/
def quote (text : String) : String :=
  String.ofList ('"' :: text.toList.flatMap escapeChar ++ ['"'])

mutual

def compact : Json → String
  | null => "null"
  | bool true => "true"
  | bool false => "false"
  | number n => n.text
  | string s => quote s
  | array items => "[" ++ String.intercalate "," (compactItems items) ++ "]"
  | object fields => "\x7b" ++ String.intercalate "," (compactFields fields) ++ "\x7d"
termination_by structural v => v

def compactItems : List Json → List String
  | [] => []
  | v :: rest => compact v :: compactItems rest
termination_by structural items => items

def compactFields : List (String × Json) → List String
  | [] => []
  | (key, v) :: rest => (quote key ++ ":" ++ compact v) :: compactFields rest
termination_by structural fields => fields

end

/-- A line break followed by the indentation of a depth. -/
def newline (depth : Nat) : String := "\n" ++ String.ofList (List.replicate (2 * depth) ' ')

/-- The lines of a container between its brackets, one item a line. -/
def enclose (opening closing : String) (depth : Nat) (items : List String) : String :=
  if items.isEmpty then opening ++ closing
  else opening ++ newline (depth + 1) ++ String.intercalate ("," ++ newline (depth + 1)) items ++
    newline depth ++ closing

mutual

def indentedAt : Json → Nat → String
  | null, _ => "null"
  | bool true, _ => "true"
  | bool false, _ => "false"
  | number n, _ => n.text
  | string s, _ => quote s
  | array items, depth => enclose "[" "]" depth (indentedItems items (depth + 1))
  | object fields, depth => enclose "\x7b" "\x7d" depth (indentedFields fields (depth + 1))
termination_by structural v => v

def indentedItems : List Json → Nat → List String
  | [], _ => []
  | v :: rest, depth => indentedAt v depth :: indentedItems rest depth
termination_by structural items => items

def indentedFields : List (String × Json) → Nat → List String
  | [], _ => []
  | (key, v) :: rest, depth =>
    (quote key ++ ": " ++ indentedAt v depth) :: indentedFields rest depth
termination_by structural fields => fields

end

def indented (v : Json) : String := indentedAt v 0

end Json

end EventContracts
