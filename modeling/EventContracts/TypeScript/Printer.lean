import EventContracts.TypeScript.Type
import EventContracts.Text.Identifier
import EventContracts.Json.Writer

/-!
# Printed types

The text of types and declarations. Operands that would otherwise be read in another way stand in
parentheses. Members of object types stand on lines of their own; comments are shown before members,
parameters and declarations, and nowhere else.
-/

namespace EventContracts.TypeScript

/-- A comment without an end of comment or of line in it. -/
def escapeComment : List Char → List Char
  | [] => []
  | '*' :: '/' :: rest => '*' :: '\\' :: '/' :: escapeComment rest
  | c :: rest => (if c = '\n' then ' ' else c) :: escapeComment rest

def docComment (comment : String) : List Char :=
  "/** ".toList ++ escapeComment comment.toList ++ " */".toList

def indent (depth : Nat) : List Char := List.replicate (4 * depth) ' '

/-- A documentation comment on a line of its own, if there is one. -/
def commentLine (comment? : Option String) (depth : Nat) : List Char :=
  match comment? with
  | some comment => indent depth ++ docComment comment ++ ['\n']
  | none => []

/-- The name of a member: bare when it can be, else as a text. -/
def memberName (name : String) : List Char :=
  if Identifier.isBare name then name.toList else (Json.quote name).toList

def joinParts (separator : List Char) : List (List Char) → List Char
  | [] => []
  | [part] => part
  | part :: rest => part ++ separator ++ joinParts separator rest

/-- A printed type, in parentheses if need be. -/
def operand (parens : Bool) (printed : List Char) : List Char :=
  if parens then ['('] ++ printed ++ [')'] else printed

/-- Lines between braces; there is nothing between them when there are no lines. -/
def braces (depth : Nat) (lines : List Char) : List Char :=
  if lines.isEmpty then ['\x7b', '\x7d'] else ['\x7b', '\n'] ++ lines ++ indent depth ++ ['\x7d']

namespace TypeExpr

/-- Whether a type stands in parentheses as the item of an array. -/
def parensInArray (t : TypeExpr) : Bool :=
  match t.bare with
  | union _ => true
  | intersection _ => true
  | function .. => true
  | _ => false

def parensInUnion (t : TypeExpr) : Bool :=
  match t.bare with
  | union _ => true
  | function .. => true
  | _ => false

def parensInIntersection (t : TypeExpr) : Bool := parensInArray t

mutual

/-- The characters of a type that starts on a line at a depth. -/
def print (depth : Nat) : TypeExpr → List Char
  | keyword word => word.text.toList
  | literal value => value.compact.toList
  | reference name => name.toList
  | array item => operand item.parensInArray (print depth item) ++ ['[', ']']
  | tuple items rest =>
    let rest := match rest with
      | some rest => ["...".toList ++ operand rest.parensInArray (print depth rest) ++ ['[', ']']]
      | none => []
    ['['] ++ joinParts ", ".toList (printItems depth items ++ rest) ++ [']']
  | object members => braces depth (printLines depth members)
  | record key value =>
    "Record<".toList ++ print depth key ++ ", ".toList ++ print depth value ++ ['>']
  | union members => joinParts " | ".toList (printUnion depth members)
  | intersection members => joinParts " & ".toList (printIntersection depth members)
  | function params returns =>
    ['('] ++ joinParts ", ".toList (printParams depth params) ++ ") => ".toList ++
      print depth returns
  | documented _ inner => print depth inner
termination_by structural t => t

def printItems (depth : Nat) : List TypeExpr → List (List Char)
  | [] => []
  | t :: rest => print depth t :: printItems depth rest
termination_by structural ts => ts

def printUnion (depth : Nat) : List TypeExpr → List (List Char)
  | [] => []
  | t :: rest => operand t.parensInUnion (print depth t) :: printUnion depth rest
termination_by structural ts => ts

def printIntersection (depth : Nat) : List TypeExpr → List (List Char)
  | [] => []
  | t :: rest => operand t.parensInIntersection (print depth t) :: printIntersection depth rest
termination_by structural ts => ts

/-- The parameters of a function, each after its comment. -/
def printParams (depth : Nat) : List (Param TypeExpr) → List (List Char)
  | [] => []
  | ⟨name, type, isRest⟩ :: more =>
    let comment := match type.comment? with
      | some comment => docComment comment ++ [' ']
      | none => []
    let written :=
      if isRest then
        "...".toList ++ name.toList ++ ": ".toList ++
          operand type.parensInArray (print depth type) ++ ['[', ']']
      else name.toList ++ ": ".toList ++ print depth type
    (comment ++ written) :: printParams depth more
termination_by structural params => params

/-- The lines of the members of an object type, one level deeper than the braces around them. -/
def printLines (depth : Nat) : List (Member TypeExpr) → List Char
  | [] => []
  | ⟨name, type, optional⟩ :: rest =>
    commentLine type.comment? (depth + 1) ++ indent (depth + 1) ++ memberName name ++
      (if optional then ['?'] else []) ++ ": ".toList ++ print (depth + 1) type ++ [';', '\n'] ++
      printLines depth rest
termination_by structural members => members

end

def text (t : TypeExpr) : String := String.ofList (print 0 t)

end TypeExpr

namespace Declaration

def print : Declaration → List Char
  | typeAlias name type =>
    commentLine type.comment? 0 ++ "export type ".toList ++ name.toList ++ " = ".toList ++
      type.print 0 ++ [';']
  | interface name members =>
    "export interface ".toList ++ name.toList ++ [' '] ++ braces 0 (TypeExpr.printLines 0 members)

def text (d : Declaration) : String := String.ofList d.print

/-- The text of declarations, with empty lines between them and a line end after them. -/
def textAll (declarations : List Declaration) : String :=
  String.ofList (joinParts "\n\n".toList (declarations.map print) ++ ['\n'])

end Declaration

end EventContracts.TypeScript
