import EventContracts.Proofs.JsonTexts
import EventContracts.Proofs.TypeRenaming
import EventContracts.TypeScript.Printer

/-! A reader of printed types. It goes by the first characters of what is left: unions are made of
intersections, these of types with array brackets after them, and what stands in parentheses is
the parameters of a function if it starts like them and an operand if not. Comments are passed over.
A reader takes what it reads from the front of a text, so what it does with a printed part is stated
for all texts that can follow the part. -/

namespace EventContracts.TypeScript

/-- A reader takes what it reads from the front of a text. -/
abbrev Reader (α : Type) := List Char → Option (α × List Char)

/-- What is left of a text after a front. -/
def expect (front : List Char) (chars : List Char) : Option (List Char) :=
  if front.isPrefixOf chars then some (chars.drop front.length) else none

/-- One or more of what a reader reads, with a separator between them. -/
def chain {α : Type} (item : Reader α) (separator : List Char) : Nat → Reader (List α)
  | 0, _ => none
  | fuel + 1, chars => do
    let (first, rest) ← item chars
    match expect separator rest with
    | some rest => do
      let (more, rest) ← chain item separator fuel rest
      return (first :: more, rest)
    | none => return ([first], rest)

/-- Whether a character can be in a bare name. -/
def isWordChar (c : Char) : Bool := Identifier.isStart c || c.isDigit

/-- A text without the spaces and line ends at its front. -/
def skipBlank (chars : List Char) : List Char := chars.dropWhile fun c => c = ' ' || c = '\n'

/-- What follows the end of a comment. -/
def afterComment : List Char → Option (List Char)
  | [] => none
  | '*' :: '/' :: rest => some rest
  | _ :: rest => afterComment rest

/-- A text without the comment at its front, if there is one. -/
def skipComment (chars : List Char) : Option (List Char) :=
  match chars with
  | '/' :: rest => (afterComment rest).map skipBlank
  | _ => some chars

/-- Whether a text starts with dots, and what follows them. -/
def spread (chars : List Char) : Bool × List Char :=
  match expect "...".toList chars with
  | some chars => (true, chars)
  | none => (false, chars)

namespace TypeExpr

/-- The type of what stands after dots: the items of an array. -/
def spreadType (rest : Bool) (t : TypeExpr) : Option TypeExpr :=
  if rest then
    match t with
    | array item => some item
    | _ => none
  else some t

/-- The type that a word stands for. -/
def ofWord (word : String) : TypeExpr :=
  if word = "true" then literal (.bool true)
  else if word = "false" then literal (.bool false)
  else match Keyword.ofText? word with
    | some known => keyword known
    | none => reference word

/-- Array brackets after a type. -/
def suffixes (t : TypeExpr) : List Char → TypeExpr × List Char
  | '[' :: ']' :: rest => suffixes (array t) rest
  | rest => (t, rest)

/-- The type of operands: one stands for itself. -/
def joined (combine : List TypeExpr → TypeExpr) : List TypeExpr → TypeExpr
  | [t] => t
  | ts => combine ts

/-- The tuple of items, of which the last one may stand after dots. -/
def tupleOf (elements : List (Bool × TypeExpr)) : TypeExpr :=
  tuple ((elements.filter (!·.1)).map (·.2)) ((elements.find? (·.1)).map (·.2))

/-- Whether what stands after an opening parenthesis are parameters: there are none, or the first
one has a comment or dots before it or a colon after its name. -/
def startsParams : List Char → Bool
  | ')' :: _ => true
  | '/' :: _ => true
  | '.' :: _ => true
  | chars => (chars.dropWhile isWordChar).head? = some ':'

section Readers

variable (type : Reader TypeExpr) (fuel : Nat)

/-- An item of a tuple, and whether it stands after dots. -/
def readElement (chars : List Char) : Option ((Bool × TypeExpr) × List Char) := do
  let (rest, chars) := spread chars
  let (t, chars) ← type chars
  let item ← spreadType rest t
  return ((rest, item), chars)

/-- The items of a tuple after its bracket. -/
def readTuple (chars : List Char) : Option (TypeExpr × List Char) :=
  match chars with
  | ']' :: chars => some (tuple [] none, chars)
  | chars => do
    let (elements, chars) ← chain (readElement type) ", ".toList fuel chars
    let chars ← expect [']'] chars
    return (tupleOf elements, chars)

/-- A parameter after its comment. -/
def readParam (chars : List Char) : Option (Param TypeExpr × List Char) := do
  let (rest, chars) := spread (← skipComment chars)
  let name := String.ofList (chars.takeWhile isWordChar)
  let chars ← expect ": ".toList (chars.dropWhile isWordChar)
  let (t, chars) ← type chars
  return (⟨name, ← spreadType rest t, rest⟩, chars)

/-- The parameters of a function. -/
def readParams (chars : List Char) : Option (List (Param TypeExpr) × List Char) :=
  match chars with
  | ')' :: _ => some ([], chars)
  | chars => chain (readParam type) ", ".toList fuel chars

/-- A function after its opening parenthesis. -/
def readFunction (chars : List Char) : Option (TypeExpr × List Char) := do
  let (params, chars) ← readParams type fuel chars
  let chars ← expect ") => ".toList chars
  let (returns, chars) ← type chars
  return (function params returns, chars)

/-- The name of a member. -/
def readMemberName (chars : List Char) : Option (String × List Char) :=
  match chars with
  | '"' :: chars => (Json.unquote chars).map fun (name, chars) => (String.ofList name, chars)
  | chars => some (String.ofList (chars.takeWhile isWordChar), chars.dropWhile isWordChar)

/-- A member after its comment. -/
def readMember (chars : List Char) : Option (Member TypeExpr × List Char) := do
  let (name, chars) ← readMemberName (← skipComment chars)
  let (optional, chars) := match expect ['?'] chars with
    | some chars => (true, chars)
    | none => (false, chars)
  let chars ← expect ": ".toList chars
  let (t, chars) ← type chars
  let chars ← expect [';'] chars
  return (⟨name, t, optional⟩, chars)

/-- The members of an object type up to its closing brace. -/
def readMembers : Nat → List Char → Option (List (Member TypeExpr) × List Char)
  | 0, _ => none
  | fuel + 1, chars =>
    match skipBlank chars with
    | '\x7d' :: chars => some ([], chars)
    | chars => do
      let (member, chars) ← readMember type chars
      let (more, chars) ← readMembers fuel chars
      return (member :: more, chars)

/-- A whole number. -/
def readInt (chars : List Char) : Option (TypeExpr × List Char) :=
  let (negative, chars) := match expect ['-'] chars with
    | some chars => (true, chars)
    | none => (false, chars)
  let size : Int := DecimalText.ofDigits (chars.takeWhile Char.isDigit)
  some (literal (.number (.whole (if negative then -size else size))), chars.dropWhile Char.isDigit)

/-- A type that starts with a word: a record is the only one with an angle bracket after it. -/
def readWord (chars : List Char) : Option (TypeExpr × List Char) :=
  match expect ['<'] (chars.dropWhile isWordChar) with
  | some chars => do
    let (key, chars) ← type chars
    let chars ← expect ", ".toList chars
    let (value, chars) ← type chars
    let chars ← expect ['>'] chars
    return (record key value, chars)
  | none => some (ofWord (String.ofList (chars.takeWhile isWordChar)), chars.dropWhile isWordChar)

/-- A type without array brackets after it. -/
def readAtom (chars : List Char) : Option (TypeExpr × List Char) :=
  match chars with
  | [] => none
  | c :: rest =>
    if c = '(' then
      if startsParams rest then readFunction type fuel rest
      else do
        let (t, rest) ← type rest
        let rest ← expect [')'] rest
        return (t, rest)
    else if c = '[' then readTuple type fuel rest
    else if c = '\x7b' then
      (readMembers type fuel rest).map fun (members, rest) => (object members, rest)
    else if c = '"' then
      (Json.unquote rest).map fun (text, rest) => (literal (.string (String.ofList text)), rest)
    else if Identifier.isStart c then readWord type chars
    else readInt chars

/-- A type with its array brackets. -/
def readPostfix (chars : List Char) : Option (TypeExpr × List Char) :=
  (readAtom type fuel chars).map fun (t, rest) => suffixes t rest

/-- An intersection, or a type that can be a member of one. -/
def readIntersection (chars : List Char) : Option (TypeExpr × List Char) :=
  (chain (readPostfix type fuel) " & ".toList fuel chars).map fun (members, rest) =>
    (joined intersection members, rest)

/-- A union, or a type that can be a member of one. -/
def readUnion (chars : List Char) : Option (TypeExpr × List Char) :=
  (chain (readIntersection type fuel) " | ".toList fuel chars).map fun (members, rest) =>
    (joined union members, rest)

end Readers

/-- Read a type in which types are nested to a depth. -/
def read : Nat → Reader TypeExpr
  | 0, _ => none
  | depth + 1, chars => readUnion (read depth) (depth + 1) chars

end TypeExpr

section Fronts

variable {α β : Type}

@[simp] lemma expect_append (front rest : List Char) :
    expect front (front ++ rest) = some rest := by
  have starts : front.isPrefixOf (front ++ rest) = true :=
    List.isPrefixOf_iff_prefix.mpr (List.prefix_append front rest)
  rw [expect, if_pos starts, List.drop_left]

lemma expect_none {c : Char} {front rest : List Char} (other : rest.head? ≠ some c) :
    expect (c :: front) rest = none := by
  cases rest with
  | nil => rfl
  | cons d rest =>
    have differs : c ≠ d := by
      rintro rfl
      exact other rfl
    simp [expect, List.isPrefixOf, differs]

variable {item : Reader α} {separator : List Char} {chars rest : List Char} {a : α} {fuel : Nat}

/-- A chain with one item ends where there is no separator after it. -/
lemma chain_one (read : item chars = some (a, rest)) (ends : expect separator rest = none) :
    chain item separator (fuel + 1) chars = some ([a], rest) := by
  simp [chain, read, ends]

/-- A chain of printed items is read back, when each item is in front of a separator and in front of
what follows the chain. -/
lemma chain_join {code : β → List Char} {view : β → α} {items : List β} (nonempty : items ≠ [])
    (enough : items.length ≤ fuel)
    (each : ∀ b ∈ items, item (code b ++ rest) = some (view b, rest) ∧
      ∀ tail, item (code b ++ (separator ++ tail)) = some (view b, separator ++ tail))
    (ends : expect separator rest = none) :
    chain item separator fuel (joinParts separator (items.map code) ++ rest) =
      some (items.map view, rest) := by
  induction items generalizing fuel with
  | nil => exact absurd rfl nonempty
  | cons b items ih =>
    obtain ⟨fuel, rfl⟩ : ∃ n, fuel = n + 1 := ⟨fuel - 1, by simp at enough; omega⟩
    obtain ⟨last, further⟩ := each b List.mem_cons_self
    cases items with
    | nil => exact chain_one last ends
    | cons d items =>
      have more := ih (List.cons_ne_nil _ _) (by simpa using enough)
        (fun x mem => each x (List.mem_cons_of_mem _ mem))
      simp only [List.map_cons, joinParts, List.append_assoc] at more ⊢
      simp [chain, further, more]

end Fronts

lemma afterComment_skip {c : Char} {rest : List Char} (h : c ≠ '*' ∨ rest.head? ≠ some '/') :
    afterComment (c :: rest) = afterComment rest := by
  rw [afterComment]
  rintro tail rfl rfl
  rcases h with h | h
  · exact h rfl
  · exact h rfl

lemma head?_escapeComment {text : List Char} (h : text.head? ≠ some '/') :
    (escapeComment text).head? ≠ some '/' := by
  fun_cases escapeComment text with
  | case1 => exact nofun
  | case2 => exact fun same => absurd (Option.some.inj same) (by decide)
  | case3 c text =>
    intro same
    have same := Option.some.inj same
    split at same
    · exact absurd same (by decide)
    · exact h (congrArg some same)

/-- The text of a comment holds no end of a comment, and makes none with the space after it. -/
lemma afterComment_escape (text rest : List Char) :
    afterComment (escapeComment text ++ (" */".toList ++ rest)) = some rest := by
  fun_induction escapeComment text with
  | case1 => rfl
  | case2 text ih =>
    rw [List.cons_append, List.cons_append, List.cons_append, afterComment_skip (.inr (by simp)),
      afterComment_skip (.inl (by decide)), afterComment_skip (.inl (by decide)), ih]
  | case3 c text other ih =>
    rw [List.cons_append, afterComment_skip ?_, ih]
    by_cases star : c = '*'
    · right
      have plain : text.head? ≠ some '/' := by
        intro slash
        obtain ⟨tail, rfl⟩ := List.head?_eq_some_iff.mp slash
        exact other tail star rfl
      cases written : escapeComment text with
      | nil => simp
      | cons d tail =>
        have := head?_escapeComment plain
        rw [written] at this
        exact this
    · left
      split
      · decide
      · exact star

/-- A comment goes up to the first end of a comment in it. -/
lemma afterComment_docComment (comment : String) (rest : List Char) :
    afterComment (docComment comment ++ rest) = some rest := by
  have opened : docComment comment ++ rest =
      '/' :: '*' :: '*' :: ' ' :: (escapeComment comment.toList ++ (" */".toList ++ rest)) := by
    simp [docComment]
  rw [opened, afterComment_skip (.inl (by decide)), afterComment_skip (.inr (by simp)),
    afterComment_skip (.inr (by simp)), afterComment_skip (.inl (by decide)), afterComment_escape]

lemma skipComment_docComment (comment : String) (rest : List Char) :
    skipComment (docComment comment ++ rest) = some (skipBlank rest) := by
  have inside : afterComment ((docComment comment).tail ++ rest) = some rest := by
    rw [← afterComment_docComment comment rest]
    exact (afterComment_skip (c := '/') (.inl (by decide))).symm
  have found : skipComment (docComment comment ++ rest) =
      (afterComment ((docComment comment).tail ++ rest)).map skipBlank := rfl
  rw [found, inside]
  rfl

lemma skipBlank_indent (depth : Nat) (rest : List Char) :
    skipBlank (indent depth ++ rest) = skipBlank rest :=
  List.dropWhile_append_of_pos fun c mem => by simp [List.eq_of_mem_replicate mem]

lemma skipBlank_cons {c : Char} {rest : List Char} (space : c ≠ ' ') (line : c ≠ '\n') :
    skipBlank (c :: rest) = c :: rest := by
  simp [skipBlank, space, line]

/-- A bare name starts with a letter or the like, and holds nothing but characters of words. -/
lemma isBare_chars {name : String} (bare : Identifier.isBare name = true) :
    ∃ c tail, name.toList = c :: tail ∧ Identifier.isStart c = true ∧
      ∀ d ∈ name.toList, isWordChar d = true := by
  rw [Identifier.isBare] at bare
  match chars : name.toList with
  | [] =>
    rw [chars] at bare
    cases bare
  | c :: tail =>
    rw [chars] at bare
    obtain ⟨start, more⟩ := Bool.and_eq_true_iff.mp bare
    refine ⟨c, tail, rfl, start, List.forall_mem_cons.mpr ⟨by simp [isWordChar, start], ?_⟩⟩
    simpa [isWordChar] using more

end EventContracts.TypeScript
