import EventContracts.Yaml.Scalar

/-!
# YAML names, tags and directives

The names of anchors, the two parts of a tag, and the lines before a document that say which version
it has and what the handles of its tags stand for.
-/

namespace EventContracts.Yaml

/-- The characters of names of anchors and of handles. -/
def isNameChar (c : Char) : Bool := c.isAlphanum || c == '_' || c == '-'

/-- A tag as written: its handle, and what stands after the handle. -/
structure Tag where
  handle : String
  suffix : String
deriving DecidableEq, Repr

inductive Directive where
  | version (major minor : Nat)
  | shorthand (handle expansion : String)
deriving DecidableEq, Repr

/-- The characters that may stand right after the name of an anchor. -/
def mayFollowName : List Char → Bool
  | [] => true
  | c :: _ =>
    isBlank c || isBreak c ||
      ['?', ':', ',', ']', '\x7d', '%', '@', Char.ofNat 0x60].contains c

/-- The name of an anchor, after its sign. -/
def scanName (chars : List Char) : Option (List Char × List Char) :=
  let name := chars.takeWhile isNameChar
  let rest := chars.dropWhile isNameChar
  if !name.isEmpty && mayFollowName rest then some (name, rest) else none

/-- The characters of a tag. Three more are allowed between angle brackets and in directives. -/
def isTagChar (verbatim : Bool) (c : Char) : Bool :=
  isNameChar c ||
    [';', '/', '?', ':', '@', '&', '=', '+', '$', '.', '!', '~', '*', '\'', '(', ')'].contains c ||
    (verbatim && [',', '[', ']'].contains c)

def prepend (c : Char) (scanned : List Char × List Char) : List Char × List Char :=
  (c :: scanned.1, scanned.2)

/-- The number of bytes that follow the first byte of a character, and the bits of that byte. -/
def leadingByte? (byte : Nat) : Option (Nat × Nat) :=
  if byte < 0x80 then some (0, byte)
  else if byte / 32 = 6 then some (1, byte % 32)
  else if byte / 16 = 14 then some (2, byte % 16)
  else if byte / 8 = 30 then some (3, byte % 8)
  else none

/-- The characters of a tag at the front of a text. Bytes may be written as two digits after a
percent sign; `missing` more of them belong to the character with the value so far. -/
def scanTagChars (verbatim : Bool) : Nat → Nat → List Char → Option (List Char × List Char)
  | missing, _, [] => if missing > 0 then none else some ([], [])
  | missing, value, c :: rest =>
    if c == '%' then
      match rest with
      | a :: b :: rest => do
        let byte := (← hexValue? a) * 16 + (← hexValue? b)
        let (missing, value) ← match missing with
          | 0 => leadingByte? byte
          | more + 1 => if byte / 64 = 2 then some (more, value * 64 + byte % 64) else none
        let scanned ← scanTagChars verbatim missing value rest
        return if missing = 0 then prepend (Char.ofNat value) scanned else scanned
      | _ => none
    else if missing > 0 then none
    else if isTagChar verbatim c then do
      return prepend c (← scanTagChars verbatim 0 0 rest)
    else some ([], c :: rest)

/-- A handle, after its first exclamation mark. -/
def scanHandle (chars : List Char) : List Char × List Char :=
  let name := chars.takeWhile isNameChar
  match chars.dropWhile isNameChar with
  | '!' :: rest => ('!' :: name ++ ['!'], rest)
  | rest => ('!' :: name, rest)

/-- A tag, after its exclamation mark. -/
def scanTag (chars : List Char) : Option (Tag × List Char) :=
  match chars with
  | '<' :: chars => do
    let (suffix, rest) ← scanTagChars true 0 0 chars
    match rest with
    | '>' :: rest => if suffix.isEmpty then none else some (⟨"", String.ofList suffix⟩, rest)
    | _ => none
  | chars => do
    let (handle, rest) := scanHandle chars
    if handle.length > 1 && handle.getLast? == some '!' then
      let (suffix, rest) ← scanTagChars false 0 0 rest
      if suffix.isEmpty then none
      else return (⟨String.ofList handle, String.ofList suffix⟩, rest)
    else
      let (more, rest) ← scanTagChars false 0 0 rest
      let suffix := handle.tail ++ more
      return (if suffix.isEmpty then ⟨"", "!"⟩ else ⟨"!", String.ofList suffix⟩, rest)

/-- Whether a tag may end before a text: before white space and, in a flow collection, a comma. -/
def tagMayEnd (flow : Bool) (chars : List Char) : Bool :=
  atBlank chars || (flow && chars.head? == some ',')

/-- A number of at most nine digits at the front of a text. -/
def scanVersionPart (chars : List Char) : Option (Nat × List Char) :=
  let digits := chars.takeWhile Char.isDigit
  if digits.isEmpty || digits.length > 9 then none
  else some (digits.foldl (fun n c => n * 10 + (c.toNat - 48)) 0, chars.dropWhile Char.isDigit)

def scanVersion (chars : List Char) : Option (Directive × List Char) := do
  let (major, rest) ← scanVersionPart (chars.dropWhile isBlank)
  match rest with
  | '.' :: rest =>
    let (minor, rest) ← scanVersionPart rest
    return (.version major minor, rest)
  | _ => none

def scanShorthand (chars : List Char) : Option (Directive × List Char) :=
  match chars.dropWhile isBlank with
  | '!' :: chars => do
    let (handle, rest) := scanHandle chars
    if handle.length > 1 && handle.getLast? != some '!' then none
    else match rest with
      | c :: _ =>
        if isBlank c then
          let (expansion, rest) ← scanTagChars true 0 0 (rest.dropWhile isBlank)
          if expansion.isEmpty || !atBlank rest then none
          else return (.shorthand (String.ofList handle) (String.ofList expansion), rest)
        else none
      | [] => none
  | _ => none

/-- A directive with its line, after the percent sign. -/
def scanDirective (chars : List Char) : Option (Directive × List Char) := do
  let name := chars.takeWhile isNameChar
  let rest := chars.dropWhile isNameChar
  if !atBlank rest then none
  let (directive, rest) ←
    if name = "YAML".toList then scanVersion rest
    else if name = "TAG".toList then scanShorthand rest
    else none
  return (directive, ← skipHeaderEnd rest)

end EventContracts.Yaml
