import EventContracts.Yaml.Tag

/-!
# YAML tokens

A text as a list of tokens. Blocks are opened where the indentation grows and closed where it
shrinks. A key that nothing announces is only known when the colon after it is found: its token, and
the one that opens its block, then go before what was scanned since the place of the key.
-/

namespace EventContracts.Yaml

inductive Token where
  | directive (content : Directive)
  | documentStart
  | documentEnd
  | blockSequence
  | blockMapping
  | blockEnd
  | entry
  | sequenceStart
  | sequenceEnd
  | mappingStart
  | mappingEnd
  | comma
  | key
  | value
  | aliasName (name : String)
  | anchor (name : String)
  | tag (content : Tag)
  | scalar (style : Style) (text : String)
deriving DecidableEq, Repr

/-- A place in a text: what follows it, and where it is. -/
structure Cursor where
  rest : List Char
  offset : Nat := 0
  line : Nat := 0
  column : Nat := 0

namespace Cursor

def skip : Nat → Cursor → Cursor
  | 0, cursor => cursor
  | n + 1, cursor =>
    match cursor.rest with
    | [] => cursor
    | c :: rest =>
      let offset := cursor.offset + 1
      skip n <|
        if isBreak c then ⟨rest, offset, cursor.line + 1, 0⟩
        else ⟨rest, offset, cursor.line, cursor.column + 1⟩

def moveTo (rest : List Char) (cursor : Cursor) : Cursor :=
  cursor.skip (cursor.rest.length - rest.length)

end Cursor

/-- A place where a key may have begun without being announced. It is required to be one when
nothing else can stand there. -/
structure KeyPlace where
  position : Nat
  required : Bool
  offset : Nat
  line : Nat
  column : Nat

/-- The state of a scan. There is one possible key for the block and one for each flow collection
around the cursor. -/
structure Scan where
  cursor : Cursor
  tokens : Array Token := #[]
  keyPlace : Option KeyPlace := none
  outerKeys : List (Option KeyPlace) := []
  indent : Int := -1
  outerIndents : List Int := []
  keyAllowed : Bool := true

namespace Scan

def inFlow (scan : Scan) : Bool := !scan.outerKeys.isEmpty

def emit (token : Token) (scan : Scan) : Scan := { scan with tokens := scan.tokens.push token }

/-- The scan, some characters further on. -/
def skip (count : Nat) (scan : Scan) : Scan := { scan with cursor := scan.cursor.skip count }

/-- The scan at the place that the rest of the text follows. -/
def moveTo (rest : List Char) (scan : Scan) : Scan :=
  { scan with cursor := scan.cursor.moveTo rest }

/-- The scan with keys allowed or not at the cursor. -/
def allowKey (allowed : Bool) (scan : Scan) : Scan := { scan with keyAllowed := allowed }

/-- Give up a possible key. -/
def abandon : Option KeyPlace → Option (Option KeyPlace)
  | some place => if place.required then none else some none
  | none => some none

def abandonKey (scan : Scan) : Option Scan := do
  return { scan with keyPlace := ← abandon scan.keyPlace }

/-- The greatest number of characters of a key that is not announced. -/
def maxKeyLength : Nat := 1024

/-- Give up a possible key that is too far away: on another line, or too many characters before. -/
def abandonStale (cursor : Cursor) (place : Option KeyPlace) : Option (Option KeyPlace) :=
  if place.any fun p => p.line < cursor.line || p.offset + maxKeyLength < cursor.offset then
    abandon place
  else some place

/-- Give up all possible keys that are too far away. -/
def abandonStaleKeys (scan : Scan) : Option Scan := do
  return { scan with
    keyPlace := ← abandonStale scan.cursor scan.keyPlace
    outerKeys := ← scan.outerKeys.mapM (abandonStale scan.cursor) }

/-- Remember the cursor as the place of a possible key. -/
def markKey (scan : Scan) : Option Scan :=
  if scan.keyAllowed then do
    let scan ← scan.abandonKey
    let cursor := scan.cursor
    let required := !scan.inFlow && scan.indent == cursor.column
    return { scan with
      keyPlace := some ⟨scan.tokens.size, required, cursor.offset, cursor.line, cursor.column⟩ }
  else some scan

/-- Open a block at a column when it is further in than the one around it. Its token goes to a
position among the tokens. -/
def openBlock (column : Nat) (position : Nat) (token : Token) (scan : Scan) : Scan :=
  if !scan.inFlow && scan.indent < column then
    { scan with
      indent := column
      outerIndents := scan.indent :: scan.outerIndents
      tokens := scan.tokens.insertIdxIfInBounds position token }
  else scan

/-- The blocks around a column: their indentations, and the tokens with the ends of the others. -/
def blocksAround (column : Int) : Int → List Int → Array Token → Int × List Int × Array Token
  | indent, [], tokens => (indent, [], tokens)
  | indent, outer :: more, tokens =>
    if column < indent then blocksAround column outer more (tokens.push .blockEnd)
    else (indent, outer :: more, tokens)

/-- Close the blocks that are further in than a column. -/
def closeBlocks (column : Int) (scan : Scan) : Scan :=
  if scan.inFlow then scan
  else
    let (indent, outer, tokens) := blocksAround column scan.indent scan.outerIndents scan.tokens
    { scan with indent := indent, outerIndents := outer, tokens := tokens }

/-- The number of characters before the next token, and whether a key may begin there. Comments go
to the end of their line. A tab cannot stand where a block may begin. -/
def spaceLength (flow : Bool) (comment : Bool) (keyAllowed : Bool) (column : Nat) :
    List Char → Nat × Bool
  | [] => (0, keyAllowed)
  | c :: rest =>
    if isBreak c then
      let (count, keyAllowed) := spaceLength flow false (keyAllowed || !flow) 0 rest
      (count + 1, keyAllowed)
    else if comment || c == ' ' || c == '#' || (c == '\t' && (flow || !keyAllowed)) ||
        (c.toNat == 0xFEFF && column == 0) then
      let (count, keyAllowed) := spaceLength flow (comment || c == '#') keyAllowed (column + 1) rest
      (count + 1, keyAllowed)
    else (0, keyAllowed)

def toNextToken (scan : Scan) : Option Scan := do
  let (count, keyAllowed) :=
    spaceLength scan.inFlow false scan.keyAllowed scan.cursor.column scan.cursor.rest
  let scan ← ((scan.skip count).allowKey keyAllowed).abandonStaleKeys
  return scan.closeBlocks scan.cursor.column

/-- A mark for the start or the end of a document. -/
def documentMark (token : Token) (scan : Scan) : Option Scan := do
  let scan ← (scan.closeBlocks (-1)).abandonKey
  return ((scan.allowKey false).skip 3).emit token

/-- A directive, after its sign. -/
def directive (chars : List Char) (scan : Scan) : Option Scan := do
  let scan ← (scan.closeBlocks (-1)).abandonKey
  let (content, rest) ← scanDirective chars
  return ((scan.allowKey false).moveTo rest).emit (.directive content)

def startFlow (token : Token) (scan : Scan) : Option Scan := do
  let scan ← scan.markKey
  let scan := { scan with keyPlace := none, outerKeys := scan.keyPlace :: scan.outerKeys }
  return ((scan.allowKey true).skip 1).emit token

def endFlow (token : Token) (scan : Scan) : Option Scan := do
  let scan ← scan.abandonKey
  let scan := match scan.outerKeys with
    | place :: outer => { scan with keyPlace := place, outerKeys := outer }
    | [] => scan
  return ((scan.allowKey false).skip 1).emit token

/-- A comma between the items of a flow collection. -/
def comma (scan : Scan) : Option Scan := do
  let scan ← scan.abandonKey
  return ((scan.allowKey true).skip 1).emit .comma

/-- Open a block at the cursor. It has to be at a place where a key may begin. -/
def openHere (token : Token) (scan : Scan) : Option Scan :=
  if scan.inFlow then some scan
  else if scan.keyAllowed then
    some (scan.openBlock scan.cursor.column scan.tokens.size token)
  else none

def entry (scan : Scan) : Option Scan := do
  let scan ← (← scan.openHere .blockSequence).abandonKey
  return ((scan.allowKey true).skip 1).emit .entry

/-- An announced key. -/
def key (scan : Scan) : Option Scan := do
  let scan ← (← scan.openHere .blockMapping).abandonKey
  return ((scan.allowKey (!scan.inFlow)).skip 1).emit .key

/-- The value of a key. When the key was not announced, it is known now. -/
def value (scan : Scan) : Option Scan := do
  let scan ← match scan.keyPlace with
    | some place =>
      let scan := { scan with
        tokens := scan.tokens.insertIdxIfInBounds place.position .key
        keyPlace := none }
      pure ((scan.openBlock place.column place.position .blockMapping).allowKey false)
    | none => do
      let scan ← scan.openHere .blockMapping
      pure (scan.allowKey (!scan.inFlow))
  return (scan.skip 1).emit .value

/-- An alias or an anchor, after its sign. -/
def name (token : String → Token) (chars : List Char) (scan : Scan) : Option Scan := do
  let scan ← scan.markKey
  let (name, rest) ← scanName chars
  return ((scan.allowKey false).moveTo rest).emit (token (String.ofList name))

/-- A tag, after its sign. -/
def tag (chars : List Char) (scan : Scan) : Option Scan := do
  let scan ← scan.markKey
  let (content, rest) ← scanTag chars
  if tagMayEnd scan.inFlow rest then
    return ((scan.allowKey false).moveTo rest).emit (.tag content)
  else none

/-- A block scalar, after its sign. -/
def blockScalar (folding : Bool) (chars : List Char) (scan : Scan) : Option Scan := do
  let scan ← scan.abandonKey
  let scanned ← scanBlock folding scan.indent chars
  return ((scan.allowKey true).moveTo scanned.rest).emit
    (.scalar (if folding then .folded else .literal) (String.ofList scanned.text))

def flowScalar (style : Style) (scanned : Option Scanned) (scan : Scan) : Option Scan := do
  let scan ← scan.markKey
  let scanned ← scanned
  return ((scan.allowKey scanned.crossedLine).moveTo scanned.rest).emit
    (.scalar style (String.ofList scanned.text))

/-- The characters that cannot stand at the start of a plain scalar. -/
def indicators : List Char :=
  ['-', '?', ':', ',', '[', ']', '\x7b', '\x7d', '#', '&', '*', '!', '|', '>', '\'', '"', '%', '@',
    Char.ofNat 0x60]

/-- Whether a plain scalar starts with a character before a text. -/
def startsPlain (flow : Bool) (c : Char) (rest : List Char) : Bool :=
  !(isBlank c || isBreak c || indicators.contains c) ||
    (c == '-' && !(rest.head?.any isBlank)) ||
    (!flow && (c == '?' || c == ':') && !atBlank rest)

/-- Scan one token, which starts with a character before a text. -/
def token (c : Char) (rest : List Char) (scan : Scan) : Option Scan :=
  let column := scan.cursor.column
  if column == 0 && c == '%' then scan.directive rest
  else if column == 0 && atDocumentMark (c :: rest) then
    scan.documentMark (if c == '-' then .documentStart else .documentEnd)
  else if c == '[' then scan.startFlow .sequenceStart
  else if c == '\x7b' then scan.startFlow .mappingStart
  else if c == ']' then scan.endFlow .sequenceEnd
  else if c == '\x7d' then scan.endFlow .mappingEnd
  else if c == ',' then scan.comma
  else if c == '-' && atBlank rest then scan.entry
  else if c == '?' && (scan.inFlow || atBlank rest) then scan.key
  else if c == ':' && (scan.inFlow || atBlank rest) then scan.value
  else if c == '*' then scan.name .aliasName rest
  else if c == '&' then scan.name .anchor rest
  else if c == '!' then scan.tag rest
  else if c == '|' && !scan.inFlow then scan.blockScalar false rest
  else if c == '>' && !scan.inFlow then scan.blockScalar true rest
  else if c == '\'' then
    scan.flowScalar .singleQuoted (scanSingleQuoted (column + 1) none [] rest)
  else if c == '"' then
    scan.flowScalar .doubleQuoted (scanDoubleQuoted .common (column + 1) none [] rest)
  else if startsPlain scan.inFlow c rest then
    scan.flowScalar .plain (scanPlain scan.inFlow (scan.indent + 1) column none [] (c :: rest))
  else none

/-- Scan all tokens. Each one takes at least one character. -/
def run : Nat → Scan → Option (Array Token)
  | 0, _ => none
  | fuel + 1, scan => do
    let scan ← scan.toNextToken
    match scan.cursor.rest with
    | [] => do return (← (scan.closeBlocks (-1)).abandonKey).tokens
    | c :: rest => do run fuel (← scan.token c rest)

end Scan

/-- Whether a character may stand in a text at all. -/
def isAllowed (c : Char) : Bool :=
  let n := c.toNat
  n == 9 || n == 10 || n == 13 || (0x20 ≤ n && n ≤ 0x7E) || n == 0x85 ||
    (0xA0 ≤ n && n ≤ 0xFFFD) || 0x10000 ≤ n

/-- The tokens of a text. A mark for the order of bytes at its start is left out. -/
def Token.ofText? (text : String) : Option (List Token) :=
  let chars := match text.toList with
    | c :: rest => if c.toNat == 0xFEFF then rest else c :: rest
    | [] => []
  if chars.all isAllowed then
    let chars := normalizeBreaks chars
    (Scan.run (chars.length + 1) { cursor := { rest := chars } }).map Array.toList
  else none

end EventContracts.Yaml
