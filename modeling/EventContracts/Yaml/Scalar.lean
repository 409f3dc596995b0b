/-!
# YAML scalars

The text of a scalar in its several written forms: plain, between single or double quotes, and as a
block of lines. Line breaks inside of a scalar are folded: a single one becomes a space, and of
several ones all but the first stay.
-/

namespace EventContracts.Yaml

inductive Style where
  | plain
  | singleQuoted
  | doubleQuoted
  | literal
  | folded
deriving DecidableEq, Repr

/-- The line separator and the paragraph separator, which break lines but are not replaced. -/
def isSeparator (c : Char) : Bool := c.toNat == 0x2028 || c.toNat == 0x2029

/-- Whether a character breaks a line. All other line breaks are line feeds here. -/
def isBreak (c : Char) : Bool := c == '\n' || isSeparator c

/-- Spaces and tabs. -/
def isBlank (c : Char) : Bool := c == ' ' || c == '\t'

def atBlank : List Char → Bool
  | [] => true
  | c :: _ => isBlank c || isBreak c

/-- Every line break other than the two separators as a line feed. -/
def normalizeBreaks : List Char → List Char
  | [] => []
  | '\r' :: '\n' :: rest => '\n' :: normalizeBreaks rest
  | c :: rest => (if c == '\r' || c.toNat == 0x85 then '\n' else c) :: normalizeBreaks rest

/-- Whether a text starts with a mark for the start or the end of a document. -/
def atDocumentMark : List Char → Bool
  | '-' :: '-' :: '-' :: rest => atBlank rest
  | '.' :: '.' :: '.' :: rest => atBlank rest
  | _ => false

/-- The white space between two parts of a scalar: the blanks of a line, or line breaks. The first
break is none when it is escaped. Lists are in reverse order. -/
structure Gap where
  blanks : List Char := []
  breaks : Option (Option Char × List Char) := none

namespace Gap

def crossesLine (gap : Gap) : Bool := gap.breaks.isSome

/-- One more character of the gap. Blanks beside a line break do not count. -/
def add (gap : Gap) (c : Char) : Gap :=
  match gap.breaks with
  | none => if isBreak c then { breaks := some (some c, []) }
    else { gap with blanks := c :: gap.blanks }
  | some (first, more) => if isBreak c then { breaks := some (first, c :: more) } else gap

/-- What stands for the gap in the text, in reverse order. -/
def folded (gap : Gap) : List Char :=
  match gap.breaks with
  | none => gap.blanks
  | some (some '\n', []) => [' ']
  | some (some '\n', more) => more
  | some (some c, more) => more ++ [c]
  | some (none, more) => more

end Gap

/-- The text of a scalar, what follows it, and whether it ended after a line break. -/
structure Scanned where
  text : List Char
  rest : List Char
  crossedLine : Bool := false

/-- The characters that end a plain scalar in a flow collection. -/
def isFlowEnd (c : Char) : Bool := c == ',' || c == '[' || c == ']' || c == '\x7b' || c == '\x7d'

/-- Scan a plain scalar. In a flow collection, commas and brackets end it, and a colon right before
one of them is refused; in a block, a line that is not indented enough ends it. -/
def scanPlain (flow : Bool) (indent : Int) : Nat → Option Gap → List Char → List Char →
    Option Scanned
  | _, gap, text, [] => some ⟨text.reverse, [], gap.any Gap.crossesLine⟩
  | column, gap, text, c :: rest =>
    let current := gap.getD {}
    if isBlank c then
      if c == '\t' && current.crossesLine && (column : Int) < indent then none
      else scanPlain flow indent (column + 1) (some (current.add c)) text rest
    else if isBreak c then scanPlain flow indent 0 (some (current.add c)) text rest
    else
      let ended : Option Scanned := some ⟨text.reverse, c :: rest, current.crossesLine⟩
      let nextEnds := match rest with
        | d :: _ => isFlowEnd d || d == '?'
        | [] => false
      if gap.isSome && ((!flow && (column : Int) < indent) ||
          (column == 0 && atDocumentMark (c :: rest)) || c == '#') then ended
      else if flow && c == ':' && nextEnds then none
      else if (c == ':' && atBlank rest) || (flow && isFlowEnd c) then ended
      else scanPlain flow indent (column + 1) none (c :: (current.folded ++ text)) rest

def escapedChar? (c : Char) : Option Char :=
  match c with
  | '0' => some (Char.ofNat 0)
  | 'a' => some (Char.ofNat 7)
  | 'b' => some (Char.ofNat 8)
  | 't' => some '\t'
  | '\t' => some '\t'
  | 'n' => some '\n'
  | 'v' => some (Char.ofNat 11)
  | 'f' => some (Char.ofNat 12)
  | 'r' => some '\r'
  | 'e' => some (Char.ofNat 27)
  | ' ' => some ' '
  | '"' => some '"'
  | '/' => some '/'
  | '\\' => some '\\'
  | 'N' => some (Char.ofNat 0x85)
  | '_' => some (Char.ofNat 0xA0)
  | 'L' => some (Char.ofNat 0x2028)
  | 'P' => some (Char.ofNat 0x2029)
  | _ => none

/-- The number of hexadecimal digits after an escape letter. -/
def escapeDigits? (c : Char) : Option Nat :=
  match c with
  | 'x' => some 2
  | 'u' => some 4
  | 'U' => some 8
  | _ => none

def hexValue? (c : Char) : Option Nat :=
  if c.isDigit then some (c.toNat - 48)
  else if 'a' ≤ c ∧ c ≤ 'f' then some (c.toNat - 87)
  else if 'A' ≤ c ∧ c ≤ 'F' then some (c.toNat - 55)
  else none

/-- Scan a scalar between single quotes, after the opening one. A quote written twice stands for
itself. -/
def scanSingleQuoted : Nat → Option Gap → List Char → List Char → Option Scanned
  | _, _, _, [] => none
  | column, gap, text, c :: rest =>
    let current := gap.getD {}
    if isBlank c then scanSingleQuoted (column + 1) (some (current.add c)) text rest
    else if isBreak c then scanSingleQuoted 0 (some (current.add c)) text rest
    else if gap.isSome && column == 0 && atDocumentMark (c :: rest) then none
    else
      let text := current.folded ++ text
      if c == '\'' then
        match rest with
        | '\'' :: more => scanSingleQuoted (column + 2) none ('\'' :: text) more
        | _ => some { text := text.reverse, rest := rest }
      else scanSingleQuoted (column + 1) none (c :: text) rest

/-- The part of a double-quoted scalar that a character belongs to: common text, an escape after its
backslash, or the digits of a numbered character. -/
inductive EscapeState where
  | common
  | escape
  | digits (missing value : Nat)

/-- Scan a scalar between double quotes, after the opening one. -/
def scanDoubleQuoted : EscapeState → Nat → Option Gap → List Char → List Char → Option Scanned
  | _, _, _, _, [] => none
  | .escape, column, _, text, c :: rest =>
    if isBreak c then scanDoubleQuoted .common 0 (some { breaks := some (none, []) }) text rest
    else match escapeDigits? c with
      | some count => scanDoubleQuoted (.digits count 0) (column + 1) none text rest
      | none => match escapedChar? c with
        | some e => scanDoubleQuoted .common (column + 1) none (e :: text) rest
        | none => none
  | .digits missing value, column, _, text, c :: rest =>
    match hexValue? c with
    | none => none
    | some digit =>
      let value := value * 16 + digit
      if missing > 1 then scanDoubleQuoted (.digits (missing - 1) value) (column + 1) none text rest
      else if value.isValidChar then
        scanDoubleQuoted .common (column + 1) none (Char.ofNat value :: text) rest
      else none
  | .common, column, gap, text, c :: rest =>
    let current := gap.getD {}
    if isBlank c then scanDoubleQuoted .common (column + 1) (some (current.add c)) text rest
    else if isBreak c then scanDoubleQuoted .common 0 (some (current.add c)) text rest
    else if gap.isSome && column == 0 && atDocumentMark (c :: rest) then none
    else
      let text := current.folded ++ text
      if c == '"' then some { text := text.reverse, rest := rest }
      else if c == '\\' then scanDoubleQuoted .escape (column + 1) none text rest
      else scanDoubleQuoted .common (column + 1) none (c :: text) rest

/-- What becomes of the line breaks at the end of a block scalar. -/
inductive Chomping where
  | strip
  | clip
  | keep
deriving DecidableEq

structure BlockHeader where
  chomping : Chomping := .clip
  increment : Option Nat := none

def takeChomping : List Char → Option Chomping × List Char
  | '+' :: rest => (some .keep, rest)
  | '-' :: rest => (some .strip, rest)
  | rest => (none, rest)

/-- The digit for the indentation at the front of a text. Zero is refused. -/
def takeIncrement : List Char → Option (Option Nat × List Char)
  | c :: rest =>
    if c == '0' then none
    else if c.isDigit then some (some (c.toNat - 48), rest) else some (none, c :: rest)
  | [] => some (none, [])

/-- The rest of the line after the header of a block scalar: blanks and a comment. -/
def skipHeaderEnd (chars : List Char) : Option (List Char) :=
  let chars := chars.dropWhile isBlank
  let chars := match chars with
    | '#' :: _ => chars.dropWhile fun c => !isBreak c
    | _ => chars
  match chars with
  | [] => some []
  | c :: rest => if isBreak c then some rest else none

/-- Scan the header of a block scalar, after its sign. -/
def scanHeader (chars : List Char) : Option (BlockHeader × List Char) := do
  let (before, chars) := takeChomping chars
  let (increment, chars) ← takeIncrement chars
  let (after, chars) := if before.isSome then (none, chars)
    else if increment.isSome then takeChomping chars else (none, chars)
  let chars ← skipHeaderEnd chars
  return (⟨(before <|> after).getD .clip, increment⟩, chars)

/-- A line without its break, and the break. -/
structure Line where
  text : List Char
  break? : Option Char

/-- The lines of a text. The last one has no break and may be empty. -/
def linesOf : List Char → List Line
  | [] => [⟨[], none⟩]
  | c :: rest =>
    if isBreak c then ⟨[], some c⟩ :: linesOf rest
    else match linesOf rest with
      | line :: more => ⟨c :: line.text, line.break?⟩ :: more
      | [] => [⟨[c], none⟩]

def ofLines (lines : List Line) : List Char :=
  lines.flatMap fun line => line.text ++ line.break?.toList

/-- The lines without content at the front of some lines: their breaks, the number of spaces at the
front of the widest line up to and with the first one with content, and the remaining lines, of
which the first one has lost its indentation, with the number of spaces that it has lost. A tab in
the indentation is refused. -/
def emptyLines (indent : Option Nat) : List Line → Option (List Char × Nat × Nat × List Line)
  | [] => some ([], 0, 0, [])
  | line :: rest =>
    let spaces := (line.text.takeWhile (· == ' ')).length
    let column := match indent with
      | some indent => min spaces indent
      | none => spaces
    let content := line.text.drop column
    let inIndent := match indent with
      | some indent => decide (column < indent)
      | none => true
    if inIndent && content.head? == some '\t' then none
    else match content, line.break? with
      | [], some b => do
        let (breaks, widest, lost, lines) ← emptyLines indent rest
        return (b :: breaks, max column widest, lost, lines)
      | content, b => some ([], column, column, ⟨content, b⟩ :: rest)

/-- The content of a block scalar so far. The first break is the one after the last line with
content, and the further ones are those of the lines without content after it. -/
structure BlockContent where
  text : List Char := []
  firstBreak : Option Char := none
  moreBreaks : List Char := []
  afterBlank : Bool := false

/-- One more line with content. Breaks between lines that start without a blank are folded. -/
def BlockContent.addLine (folding : Bool) (content : BlockContent) (line : Line)
    (moreBreaks : List Char) : BlockContent :=
  let startsBlank := match line.text with
    | c :: _ => isBlank c
    | [] => false
  let joined :=
    if folding && content.firstBreak == some '\n' && !content.afterBlank && !startsBlank then
      if content.moreBreaks.isEmpty then [' '] else content.moreBreaks
    else content.firstBreak.toList ++ content.moreBreaks
  { text := content.text ++ joined ++ line.text
    firstBreak := line.break?
    moreBreaks := moreBreaks
    afterBlank := startsBlank }

/-- Scan the lines of a block scalar, whose first line has lost its indentation. -/
def scanLines (folding : Bool) (indent : Nat) : Nat → BlockContent → Nat → List Line →
    Option (BlockContent × List Line)
  | 0, content, _, lines => some (content, lines)
  | fuel + 1, content, lost, lines =>
    match lines with
    | [] => some (content, [])
    | line :: rest =>
      if lost == indent && !(line.text.isEmpty && line.break?.isNone) then do
        let (breaks, _, lost, lines) ← emptyLines (some indent) rest
        scanLines folding indent fuel (content.addLine folding line breaks) lost lines
      else some (content, lines)

/-- Scan a block scalar, after its sign, below nodes at an indentation. -/
def scanBlock (folding : Bool) (parent : Int) (chars : List Char) : Option Scanned := do
  let (header, chars) ← scanHeader chars
  let lines := linesOf chars
  let given : Option Nat := header.increment.map fun n =>
    if parent ≥ 0 then parent.toNat + n else n
  let (breaks, widest, lost, lines) ← emptyLines given lines
  let indent := given.getD (max widest (max (parent + 1).toNat 1))
  let (content, lines) ←
    scanLines folding indent (lines.length + 1) { moreBreaks := breaks } lost lines
  let tail := match header.chomping with
    | .strip => []
    | .clip => content.firstBreak.toList
    | .keep => content.firstBreak.toList ++ content.moreBreaks
  return { text := content.text ++ tail, rest := ofLines lines }

end EventContracts.Yaml
