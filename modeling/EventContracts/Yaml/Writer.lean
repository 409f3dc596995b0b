import EventContracts.Decimal.Notation
import EventContracts.Yaml.Plain

/-!
# YAML text

Values in block style. A scalar is plain where its text allows it and would be read back as a text;
a text of several lines is a literal block. What no other style can hold stands between double
quotes. Sequences in mappings are not indented; everything else lies two columns deeper than what
holds it.
-/

namespace EventContracts.Yaml

/-- Doubles in YAML text: positional from `0.00001` to just below `10^16`. -/
def numberStyle : NumberStyle := ⟨-4, 16, ""⟩

/-- The columns between a block and what it holds. -/
def indentWidth : Nat := 2

def spaces (column : Nat) : String := String.ofList (List.replicate column ' ')

/-- Every character that breaks a line, of which only the line feed is written in blocks. -/
def breaksLine (c : Char) : Bool := isBreak c || c == '\r' || c.toNat == 0x85

def isWritable (c : Char) : Bool :=
  let n := c.toNat
  n == 10 || (0x20 ≤ n && n ≤ 0x7E) || (0xA0 ≤ n && n ≤ 0xFFFD && n != 0xFEFF) || 0x10000 ≤ n

def neighbours (chars : List Char) : List (Char × Char) := chars.zip chars.tail

/-- Whether a character at the start of a text, before the rest of it, says what the text is. -/
def isIndicator (c : Char) (rest : List Char) : Bool :=
  ['#', ',', '[', ']', '\x7b', '\x7d', '&', '*', '!', '|', '>', '\'', '"', '%', '@',
    Char.ofNat 0x60].contains c ||
  ((c == '?' || c == ':' || c == '-') && (atBlank rest || rest.head?.any breaksLine))

/-- Whether there is a mark of a key in a text, or of a comment. -/
def hasInnerMark (chars : List Char) : Bool :=
  chars.getLast? == some ':' ||
    (neighbours chars).any fun (a, b) =>
      (a == ':' && (isBlank b || breaksLine b)) || ((isBlank a || breaksLine a) && b == '#')

/-- Whether a text starts like a mark of a document. -/
def startsLikeMark (chars : List Char) : Bool :=
  ['-', '-', '-'].isPrefixOf chars || ['.', '.', '.'].isPrefixOf chars

/-- Whether a text has characters that only an escape can stand for, or a space before a break. -/
def needsEscapes (chars : List Char) : Bool :=
  chars.any (fun c => !isWritable c) ||
    (neighbours chars).any fun (a, b) => a == ' ' && breaksLine b

def fitsBlock (chars : List Char) : Bool :=
  !needsEscapes chars && chars.getLast? != some ' '

/-- Whether a text can stand between single quotes. -/
def fitsSingleQuotes (chars : List Char) : Bool :=
  !needsEscapes chars && !(neighbours chars).any fun (a, b) => breaksLine a && b == ' '

def fitsPlain (chars : List Char) : Bool :=
  match chars with
  | [] => true
  | c :: rest =>
    fitsSingleQuotes chars && !chars.any breaksLine && c != ' ' && chars.getLast? != some ' ' &&
      !startsLikeMark chars && !isIndicator c rest && !hasInnerMark chars

/-- Whether a text on its own would be read back as this text. Digits after a leading zero are not
trusted to be. -/
def meansItself (text : String) : Bool :=
  Plain.ofText text = .text && !Plain.hasLeadingZero (Plain.withoutSign text.toList)

def styleOf (text : String) : Style :=
  let chars := text.toList
  if chars.contains '\n' then if fitsBlock chars then .literal else .doubleQuoted
  else if meansItself text && fitsPlain chars then .plain
  else if fitsSingleQuotes chars then .singleQuoted
  else .doubleQuoted

def upperHex (n : Nat) : Char := if n < 10 then Char.ofNat (48 + n) else Char.ofNat (55 + n)

def hexText (width n : Nat) : List Char :=
  (List.range width).reverse.map fun place => upperHex (n / Nat.pow 16 place % 16)

def escapeChar (c : Char) : List Char :=
  match c with
  | '"' => ['\\', '"']
  | '\\' => ['\\', '\\']
  | '\t' => ['\\', 't']
  | '\n' => ['\\', 'n']
  | '\r' => ['\\', 'r']
  | c =>
    if isWritable c && !breaksLine c then [c]
    else match c.toNat with
      | 0 => ['\\', '0']
      | 7 => ['\\', 'a']
      | 8 => ['\\', 'b']
      | 11 => ['\\', 'v']
      | 12 => ['\\', 'f']
      | 27 => ['\\', 'e']
      | 0x85 => ['\\', 'N']
      | 0x2028 => ['\\', 'L']
      | 0x2029 => ['\\', 'P']
      | n => if n ≤ 0xFF then ['\\', 'x'] ++ hexText 2 n else ['\\', 'u'] ++ hexText 4 n

/-- Lines of a text at a column. The spaces before a line go right before its first character, so
that empty lines have none. -/
def indentLines (column : Nat) : Bool → List Char → List Char
  | _, [] => []
  | atStart, c :: rest =>
    if isBreak c then c :: indentLines column true rest
    else (if atStart then List.replicate column ' ' else []) ++ c :: indentLines column false rest

/-- A text between single quotes. A quote is written twice. A line that ends at a separator goes on
at a column. -/
def singleQuote (column : Nat) (chars : List Char) : String :=
  let lines := indentLines column false (chars.flatMap fun c => if c == '\'' then [c, c] else [c])
  let indent := if chars.getLast?.any isBreak then spaces column else ""
  "'" ++ String.ofList lines ++ indent ++ "'"

/-- The signs at the start of a literal block: for spaces at its start, and for the line breaks at
its end. -/
def literalHints (chars : List Char) : String :=
  let indent := match chars with
    | c :: _ => if c == ' ' || isBreak c then toString indentWidth else ""
    | [] => ""
  let chomping := match chars.reverse with
    | last :: before =>
      if !isBreak last then "-"
      else match before with
        | c :: _ => if isBreak c then "+" else ""
        | [] => "+"
    | [] => "-"
  indent ++ chomping

/-- A text in its style, with its lines at a column. -/
def scalarText (column : Nat) (text : String) : String :=
  let chars := text.toList
  match styleOf text with
  | .literal =>
    "|" ++ literalHints chars ++ "\n" ++ String.ofList (indentLines column true chars)
  | .singleQuoted => singleQuote column chars
  | .doubleQuoted => "\"" ++ String.ofList (chars.flatMap escapeChar) ++ "\""
  | _ => text

def endLine (text : String) : String :=
  if text.toList.getLast?.any isBreak then text else text ++ "\n"

def numberText : Number → String
  | .whole n => toString n
  | .double d => numberStyle.text d

/-- The greatest number of bytes of a key that stands before a colon on its line. -/
def maxKeySize : Nat := 128

/-- Whether a key stands before a colon on its line. -/
def isSimpleKey (key : String) : Bool :=
  key.utf8ByteSize ≤ maxKeySize && !key.toList.any breaksLine

/-- Entries of a block at a column, the first of which stands there already. -/
def layOut (column : Nat) (entries : List String) : String :=
  String.intercalate (spaces column) entries

mutual

/-- A value that follows an indicator and a space on its line. The block around it is at a
column. -/
def besideText (column : Nat) : Json → String
  | .null => "null\n"
  | .bool true => "true\n"
  | .bool false => "false\n"
  | .number n => numberText n ++ "\n"
  | .string s => endLine (scalarText (column + indentWidth) s)
  | .array [] => "[]\n"
  | .array (v :: rest) =>
    layOut (column + indentWidth) (itemTexts (column + indentWidth) (v :: rest))
  | .object [] => "\x7b\x7d\n"
  | .object (field :: rest) =>
    layOut (column + indentWidth) (fieldTexts (column + indentWidth) (field :: rest))
termination_by structural v => v

/-- A value after a key and a colon. Collections begin on the next line. -/
def belowText (column : Nat) : Json → String
  | .null => " null\n"
  | .bool true => " true\n"
  | .bool false => " false\n"
  | .number n => " " ++ numberText n ++ "\n"
  | .string s => " " ++ endLine (scalarText (column + indentWidth) s)
  | .array [] => " []\n"
  | .array (v :: rest) => "\n" ++ spaces column ++ layOut column (itemTexts column (v :: rest))
  | .object [] => " \x7b\x7d\n"
  | .object (field :: rest) =>
    "\n" ++ spaces (column + indentWidth) ++
      layOut (column + indentWidth) (fieldTexts (column + indentWidth) (field :: rest))
termination_by structural v => v

def itemTexts (column : Nat) : List Json → List String
  | [] => []
  | v :: rest => ("- " ++ besideText column v) :: itemTexts column rest
termination_by structural items => items

/-- The fields of a mapping at a column. A key that is long or has several lines is announced. -/
def fieldTexts (column : Nat) : List (String × Json) → List String
  | [] => []
  | (key, v) :: rest =>
    (if isSimpleKey key then scalarText (column + indentWidth) key ++ ":" ++ belowText column v
    else
      "? " ++ endLine (scalarText (column + indentWidth) key) ++ spaces column ++ ": " ++
        besideText column v) :: fieldTexts column rest
termination_by structural fields => fields

end

def write : Json → String
  | .array (v :: rest) => layOut 0 (itemTexts 0 (v :: rest))
  | .object (field :: rest) => layOut 0 (fieldTexts 0 (field :: rest))
  | v => besideText 0 v

end EventContracts.Yaml
