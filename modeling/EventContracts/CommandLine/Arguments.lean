import EventContracts.Config.Basic
import EventContracts.Decimal.Reading
import EventContracts.TextFormat

/-!
# Arguments

The arguments of the command line: the path of the manifests, and parameters with or without a value
in any order. A value stands in the next argument or after an equals sign; after a letter it may
follow at once. No parameter is given twice, and after two dashes everything is a path.
-/

namespace EventContracts.CommandLine

inductive Parameter where
  | format
  | docs
  | types
  | maxOverloads
  | noQuestionMark
  | noUndefined
  | title
  | version
  | verbose
deriving DecidableEq, Repr

namespace Parameter

def all : List Parameter :=
  [format, docs, types, maxOverloads, noQuestionMark, noUndefined, title, version, verbose]

/-- The word for a parameter, after its two dashes. -/
def word : Parameter → String
  | format => "format"
  | docs => "docs"
  | types => "types"
  | maxOverloads => "max-overloads"
  | noQuestionMark => "no-question-mark"
  | noUndefined => "no-undefined"
  | title => "title"
  | version => "version-label"
  | verbose => "verbose"

/-- The letter for a parameter, after its one dash. -/
def letter? : Parameter → Option Char
  | format => some 'f'
  | verbose => some 'v'
  | _ => none

def takesValue : Parameter → Bool
  | noQuestionMark => false
  | noUndefined => false
  | verbose => false
  | _ => true

def ofWord? (word : String) : Option Parameter := all.find? fun p => p.word = word

def ofLetter? (c : Char) : Option Parameter := all.find? fun p => p.letter? = some c

end Parameter

/-- What is given: paths, and parameters with their values. A parameter without value has an empty
one. -/
structure Given where
  paths : List String := []
  values : List (Parameter × String) := []

namespace Given

def has (given : Given) (p : Parameter) : Bool := (given.values.lookup p).isSome

def value? (given : Given) (p : Parameter) : Option String := given.values.lookup p

/-- Give a parameter a value, once. -/
def give (given : Given) (p : Parameter) (value : String) : Option Given :=
  if given.has p then none else some { given with values := given.values ++ [(p, value)] }

/-- Read the letters of one argument. The last one may wait for a value. -/
def readLetters : List Char → Given → Option (Given × Option Parameter)
  | [], given => some (given, none)
  | c :: rest, given => do
    let p ← Parameter.ofLetter? c
    if p.takesValue then
      match rest with
      | [] => return (given, some p)
      | '=' :: value => return (← given.give p (String.ofList value), none)
      | value => return (← given.give p (String.ofList value), none)
    else readLetters rest (← given.give p "")

/-- Whether an argument can be the value of the one before it. -/
def isValue (argument : String) : Bool := !argument.startsWith "-" || argument = "-"

def read : List String → Given → Option Given
  | [], given => some given
  | argument :: rest, given =>
    if argument = "--" then some { given with paths := given.paths ++ rest }
    else match argument.toList with
      | '-' :: '-' :: chars => do
        let p ← Parameter.ofWord? (String.ofList (chars.takeWhile (· ≠ '=')))
        match chars.dropWhile (· ≠ '='), p.takesValue with
        | _ :: value, true => read rest (← given.give p (String.ofList value))
        | _ :: _, false => none
        | [], false => read rest (← given.give p "")
        | [], true =>
          match rest with
          | value :: rest => if isValue value then do read rest (← given.give p value) else none
          | [] => none
      | '-' :: c :: chars => do
        match ← readLetters (c :: chars) given with
        | (given, none) => read rest given
        | (given, some p) =>
          match rest with
          | value :: rest => if isValue value then do read rest (← given.give p value) else none
          | [] => none
      | _ => read rest { given with paths := given.paths ++ [argument] }

end Given

structure Arguments where
  manifest : String
  format : TextFormat := .yaml
  docs : Option String := none
  types : Option String := none
  overrides : Overrides := {}
  verbose : Bool := false

namespace Arguments

/-- The value of a parameter that may be missing but has to be right when it is there. -/
def valueOf? {α : Type} (given : Given) (p : Parameter) (read : String → Option α) :
    Option (Option α) :=
  match given.value? p with
  | some value => (read value).map some
  | none => some none

/-- A path, which is not empty. -/
def path? (text : String) : Option String := if text.isEmpty then none else some text

def count? (text : String) : Option Nat := do
  let n ← DecimalText.readInt text
  if text.startsWith "-" || n ≥ Nat.pow 2 64 then none else some n.toNat

def ofGiven? (given : Given) : Option Arguments := do
  let manifest ← match given.paths with
    | [path] => path? path
    | _ => none
  return {
    manifest := manifest
    format := (← valueOf? given .format TextFormat.ofName?).getD .yaml
    docs := ← valueOf? given .docs path?
    types := ← valueOf? given .types path?
    overrides := {
      title := ← valueOf? given .title some
      version := ← valueOf? given .version some
      maxOverloads := ← valueOf? given .maxOverloads count?
      noQuestionMark := given.has .noQuestionMark
      noUndefined := given.has .noUndefined }
    verbose := given.has .verbose }

def read? (arguments : List String) : Option Arguments := (Given.read arguments {}).bind ofGiven?

end Arguments

end EventContracts.CommandLine
