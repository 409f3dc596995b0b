import EventContracts.Pattern.CharSet

/-!
# Regular expressions

Search for a match anywhere in a text. The search keeps the set of expressions that remain to be
matched by what follows: a character replaces each of them by its partial derivatives, of which an
expression has finitely many. Whether an expression matches the empty text depends on the place,
because of the anchors.
-/

namespace EventContracts

/-- How patterns are read: in which texts one is found, unless it is malformed. -/
abbrev PatternReader := String → Option (String → Bool)

/-- A regular expression over characters, with anchors. -/
inductive Regex where
  | never
  | empty
  | set (chars : CharSet)
  | start
  | stop
  | wordEdge (inverted : Bool)
  | seq (left right : Regex)
  | alt (left right : Regex)
  | star (inner : Regex)
deriving DecidableEq, Repr

namespace Regex

/-- A place in a text: the characters on both sides of it. -/
structure Place where
  before : Option Char
  after : Option Char

/-- Whether exactly one side of a place belongs to a word. -/
def Place.isWordEdge (place : Place) : Bool :=
  (place.before.any Text.isWord) != (place.after.any Text.isWord)

/-- Whether an expression matches the empty text at a place. -/
def nullable (place : Place) : Regex → Bool
  | never => false
  | empty => true
  | set _ => false
  | start => place.before.isNone
  | stop => place.after.isNone
  | wordEdge inverted => place.isWordEdge != inverted
  | seq left right => nullable place left && nullable place right
  | alt left right => nullable place left || nullable place right
  | star _ => true

/-- One expression after another, without a leading empty one. -/
def andThen (left right : Regex) : Regex := if left = empty then right else seq left right

/-- What may remain of an expression after the character on the right of a place. -/
def partials (place : Place) (c : Char) : Regex → List Regex
  | never => []
  | empty => []
  | set chars => if chars.has c then [empty] else []
  | start => []
  | stop => []
  | wordEdge _ => []
  | seq left right =>
    (partials place c left).map (andThen · right) ++
      (if nullable place left then partials place c right else [])
  | alt left right => partials place c left ++ partials place c right
  | star inner => (partials place c inner).map (andThen · (star inner))

/-- Whether one of the expressions in progress, or a match that starts here or later, ends in a
match. -/
def searchFrom (whole : Regex) (pending : List Regex) (before : Option Char) : List Char → Bool
  | [] => (whole :: pending).any (nullable ⟨before, none⟩)
  | c :: rest =>
    let place : Place := ⟨before, some c⟩
    let active := whole :: pending
    active.any (nullable place) ||
      searchFrom whole (active.flatMap (partials place c)).eraseDups (some c) rest

/-- Whether an expression matches some part of a text. -/
def matchesIn (r : Regex) (text : String) : Bool := searchFrom r [] none text.toList

/-- `n` copies of an expression. -/
def power (r : Regex) : Nat → Regex
  | 0 => empty
  | n + 1 => seq r (power r n)

/-- At most `n` copies of an expression. -/
def atMost (r : Regex) : Nat → Regex
  | 0 => empty
  | n + 1 => alt (seq r (atMost r n)) empty

def repeated (r : Regex) (least : Nat) (most : Option Nat) : Regex :=
  match most with
  | none => seq (power r least) (star r)
  | some most => seq (power r least) (atMost r (most - least))

def ofReversed (parts : List Regex) : Regex := parts.foldl (fun acc r => seq r acc) empty

end Regex

end EventContracts
