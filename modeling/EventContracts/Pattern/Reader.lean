import EventContracts.Pattern.Regex

/-!
# Reading patterns

A pattern is cut into pieces, which are then put together on a stack of open groups. There are
literal characters, `.`, classes in brackets, the classes `\d \w \s` and their complements, the
anchors `^ $ \b \B \A \z`, groups, alternatives, and repetition with `* + ?` and counts.

The language of patterns has more than that: flags such as `(?i)`, the classes `\p` of Unicode and
`[:alpha:]`, classes inside of classes with the signs `&& -- ~~` between them, the edges of words
`\< \> \b{start}`, and a bound on the size of a pattern. Nothing of it is read here, and a pattern
that has it is taken for malformed. So validation asks for a reader of patterns, and what is proved
of validation holds for all readers; this one is what a library has unless it is given another.
-/

namespace EventContracts.Regex

inductive Escape where
  | char (c : Char)
  | set (chars : CharSet)
  | anchor (r : Regex)

def hexDigit? (c : Char) : Option Nat :=
  if c.isDigit then some (c.toNat - 48)
  else if 'a' ≤ c ∧ c ≤ 'f' then some (c.toNat - 87)
  else if 'A' ≤ c ∧ c ≤ 'F' then some (c.toNat - 55)
  else none

/-- The character of a list of hexadecimal digits. -/
def hexChar? (digits : List Char) : Option Char := do
  let values ← digits.mapM hexDigit?
  let code := values.foldl (fun n d => n * 16 + d) 0
  if values.isEmpty || !(decide code.isValidChar) then none else some (Char.ofNat code)

/-- A character given by its number: a fixed count of digits, or any count between braces. -/
def takeHex (count : Nat) : List Char → Option (Escape × List Char)
  | '\x7b' :: rest =>
    match rest.dropWhile (· != '\x7d') with
    | _ :: after => (hexChar? (rest.takeWhile (· != '\x7d'))).map fun c => (.char c, after)
    | [] => none
  | rest =>
    if rest.length < count then none
    else (hexChar? (rest.take count)).map fun c => (.char c, rest.drop count)

def takeEscape : List Char → Option (Escape × List Char)
  | [] => none
  | c :: rest =>
    match c with
    | 'd' => some (.set .digit, rest)
    | 'D' => some (.set (.other .digit), rest)
    | 'w' => some (.set .word, rest)
    | 'W' => some (.set (.other .word), rest)
    | 's' => some (.set .blank, rest)
    | 'S' => some (.set (.other .blank), rest)
    | 'b' => some (.anchor (.wordEdge false), rest)
    | 'B' => some (.anchor (.wordEdge true), rest)
    | 'A' => some (.anchor .start, rest)
    | 'z' => some (.anchor .stop, rest)
    | 'n' => some (.char '\n', rest)
    | 't' => some (.char '\t', rest)
    | 'r' => some (.char '\r', rest)
    | 'f' => some (.char '\x0c', rest)
    | 'v' => some (.char '\x0b', rest)
    | 'a' => some (.char '\x07', rest)
    | 'x' => takeHex 2 rest
    | 'u' => takeHex 4 rest
    | 'U' => takeHex 8 rest
    | c =>
      if c.toNat < 128 && !c.isAlphanum && c != '<' && c != '>' then some (.char c, rest)
      else none

/-- One member of a class: a character, or a set. -/
def takeMember : List Char → Option ((Char ⊕ CharSet) × List Char)
  | [] => none
  | '\\' :: rest => match takeEscape rest with
    | some (.char c, rest) => some (.inl c, rest)
    | some (.set chars, rest) => some (.inr chars, rest)
    | _ => none
  | c :: rest => some (.inl c, rest)

/-- The members of a class up to its closing bracket. Brackets inside of a class, and the doubled
signs that combine classes, are not taken for members. -/
def takeMembers : Nat → CharSet → List Char → Option (CharSet × List Char)
  | 0, _, _ => none
  | fuel + 1, found, chars =>
    match chars with
    | [] => none
    | ']' :: rest => some (found, rest)
    | '[' :: _ => none
    | '&' :: '&' :: _ => none
    | '~' :: '~' :: _ => none
    | '-' :: '-' :: _ => none
    | chars => do
      let (first, rest) ← takeMember chars
      match first, rest with
      | .inl a, '-' :: ']' :: _ => takeMembers fuel (.either found (.one a)) rest
      | _, '-' :: '-' :: _ => none
      | .inl a, '-' :: more =>
        match ← takeMember more with
        | (.inl b, rest) =>
          if a ≤ b then takeMembers fuel (.either found (.range a b)) rest else none
        | _ => none
      | .inl a, rest => takeMembers fuel (.either found (.one a)) rest
      | .inr _, '-' :: c :: _ =>
        if c = ']' then takeMembers fuel (.either found (first.elim .one id)) rest else none
      | .inr chars, rest => takeMembers fuel (.either found chars) rest

/-- A class, after its opening bracket. Hyphens at its front, or else a closing bracket there,
stand for themselves. -/
def takeClass (chars : List Char) : Option (CharSet × List Char) :=
  let (negated, chars) := match chars with
    | '^' :: rest => (true, rest)
    | rest => (false, rest)
  let hyphens := chars.takeWhile (· == '-')
  let chars := chars.dropWhile (· == '-')
  let (found, chars) :=
    if !hyphens.isEmpty then (CharSet.one '-', chars)
    else match chars with
      | ']' :: rest => (CharSet.one ']', rest)
      | rest => (CharSet.nothing, rest)
  (takeMembers (chars.length + 1) found chars).map fun (members, rest) =>
    (if negated then .other members else members, rest)

/-- A decimal number, with blanks around it. -/
def takeCount (chars : List Char) : Option (Nat × List Char) :=
  let chars := chars.dropWhile Text.isBlank
  let digits := chars.takeWhile Char.isDigit
  let rest := (chars.dropWhile Char.isDigit).dropWhile Text.isBlank
  if digits.isEmpty then none
  else some (digits.foldl (fun n c => n * 10 + (c.toNat - 48)) 0, rest)

/-- The bounds of a counted repetition, after its opening brace. -/
def takeBounds (chars : List Char) : Option ((Nat × Option Nat) × List Char) := do
  let (least, rest) ← takeCount chars
  match rest with
  | '\x7d' :: rest => some ((least, some least), rest)
  | ',' :: rest =>
    match rest.dropWhile Text.isBlank with
    | '\x7d' :: rest => some ((least, none), rest)
    | rest =>
      let (most, rest) ← takeCount rest
      match rest with
      | '\x7d' :: rest => if least ≤ most then some ((least, some most), rest) else none
      | _ => none
  | _ => none

/-- The pieces of a pattern. -/
inductive Piece where
  | single (r : Regex)
  | openGroup
  | closeGroup
  | bar
  | repetition (least : Nat) (most : Option Nat)

/-- Drop the mark that asks for few repetitions rather than many, which never changes whether
there is a match. -/
def dropLazyMark : List Char → List Char
  | '?' :: rest => rest
  | rest => rest

/-- The name of a group up to its closing angle bracket. -/
def takeGroupName (chars : List Char) : Option (List Char) :=
  let name := chars.takeWhile (· != '>')
  let wellFormed := match name with
    | [] => false
    | c :: rest => (c.isAlpha || c == '_') && rest.all fun c => c.isAlphanum || c == '_'
  match chars.dropWhile (· != '>') with
  | _ :: rest => if wellFormed then some rest else none
  | [] => none

/-- The next piece of a pattern that is not at its end. -/
def takePiece : List Char → Option (Piece × List Char)
  | [] => none
  | '(' :: '?' :: ':' :: rest => some (.openGroup, rest)
  | '(' :: '?' :: 'P' :: '<' :: rest => (takeGroupName rest).map fun rest => (.openGroup, rest)
  | '(' :: '?' :: '<' :: rest => (takeGroupName rest).map fun rest => (.openGroup, rest)
  | '(' :: '?' :: _ => none
  | '(' :: rest => some (.openGroup, rest)
  | ')' :: rest => some (.closeGroup, rest)
  | '|' :: rest => some (.bar, rest)
  | '*' :: rest => some (.repetition 0 none, dropLazyMark rest)
  | '+' :: rest => some (.repetition 1 none, dropLazyMark rest)
  | '?' :: rest => some (.repetition 0 (some 1), dropLazyMark rest)
  | '\x7b' :: rest => (takeBounds rest).map fun ((least, most), rest) =>
      (.repetition least most, dropLazyMark rest)
  | '[' :: rest => (takeClass rest).map fun (chars, rest) => (.single (.set chars), rest)
  | '.' :: rest => some (.single (.set .line), rest)
  | '^' :: rest => some (.single .start, rest)
  | '$' :: rest => some (.single .stop, rest)
  | '\\' :: rest => (takeEscape rest).map fun (escape, rest) =>
      (.single (match escape with
        | .char c => .set (.one c)
        | .set chars => .set chars
        | .anchor r => r), rest)
  | c :: rest => some (.single (.set (.one c)), rest)

/-- The pieces of a pattern; none when it has a part that is no piece. -/
def pieces? : Nat → List Char → Option (List Piece)
  | _, [] => some []
  | 0, _ => none
  | fuel + 1, chars => do
    let (piece, rest) ← takePiece chars
    let more ← pieces? fuel rest
    return piece :: more

/-- A group that is not closed yet: the alternatives that are complete, and the parts of the one in
progress, in reverse. -/
structure OpenGroup where
  done : Option Regex
  parts : List Regex

def OpenGroup.close (group : OpenGroup) : Regex :=
  match group.done with
  | none => ofReversed group.parts
  | some done => .alt done (ofReversed group.parts)

/-- Put one piece in its place. -/
def assemble (stack : List OpenGroup) (piece : Piece) : Option (List OpenGroup) :=
  match piece, stack with
  | .single r, group :: outer => some ({ group with parts := r :: group.parts } :: outer)
  | .openGroup, stack => some (⟨none, []⟩ :: stack)
  | .closeGroup, group :: above :: outer =>
    some ({ above with parts := group.close :: above.parts } :: outer)
  | .bar, group :: outer => some (⟨some group.close, []⟩ :: outer)
  | .repetition least most, group :: outer =>
    match group.parts with
    | r :: parts => some ({ group with parts := repeated r least most :: parts } :: outer)
    | [] => none
  | _, _ => none

/-- The expression of a pattern; none when the pattern is not well formed. -/
def ofPattern? (pattern : String) : Option Regex := do
  let chars := pattern.toList
  let pieces ← pieces? chars.length chars
  match ← pieces.foldlM assemble [⟨none, []⟩] with
  | [group] => some group.close
  | _ => none

def reader : PatternReader := fun pattern => (ofPattern? pattern).map matchesIn

end EventContracts.Regex
