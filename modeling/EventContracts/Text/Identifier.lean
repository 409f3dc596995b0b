/-!
# Identifiers

Names for the parts of an artifact, made from free text: the words of the text, each with a capital
first letter, written together. Words are runs of ASCII letters and digits, and a capital after
anything but a capital starts a new word.
-/

namespace EventContracts.Identifier

def isWordChar (c : Char) : Bool := c.isAlpha || c.isDigit

def runs : List Char → List (List Char)
  | [] => []
  | c :: rest =>
    if isWordChar c then
      match rest, runs rest with
      | d :: _, run :: more => if isWordChar d then (c :: run) :: more else [c] :: run :: more
      | _, more => [c] :: more
    else runs rest

/-- Cut a run before each capital that does not follow a capital. The flag says whether the
character before was a capital. -/
def cutFrom (afterCapital : Bool) : List Char → List Char × List (List Char)
  | [] => ([], [])
  | c :: rest =>
    let (word, more) := cutFrom c.isUpper rest
    if c.isUpper && !afterCapital then ([], (c :: word) :: more) else (c :: word, more)

def words (run : List Char) : List (List Char) :=
  match run with
  | [] => []
  | c :: rest =>
    let (word, more) := cutFrom c.isUpper rest
    (c :: word) :: more

def capitalize : List Char → List Char
  | [] => []
  | c :: rest => c.toUpper :: rest

def ofText (text : String) : List Char := ((runs text.toList).flatMap words).flatMap capitalize

def ofParts (parts : List String) : String := String.ofList (parts.flatMap ofText)

/-- The identifier of a namespace path; a path without words is the root. -/
def ofNamespace (path : String) : String :=
  let id := ofParts [path]
  if id.isEmpty then "Root" else id

def isStart (c : Char) : Bool := c.isAlpha || c == '_' || c == '$'

def isBare (name : String) : Bool :=
  match name.toList with
  | [] => false
  | c :: rest => isStart c && rest.all fun c => isStart c || c.isDigit

end EventContracts.Identifier
