import EventContracts.Json.Value

/-!
# Types

The type expressions of the typed view, and the unions that are built from them: flat, and without
repeated members.
-/

namespace EventContracts.TypeScript

inductive Keyword where
  | string
  | number
  | bigint
  | boolean
  | null
  | undefined
  | any
  | unknown
  | never
  | void
deriving DecidableEq, Repr

namespace Keyword

def all : List Keyword :=
  [string, number, bigint, boolean, null, undefined, any, unknown, never, void]

def text : Keyword → String
  | string => "string"
  | number => "number"
  | bigint => "bigint"
  | boolean => "boolean"
  | null => "null"
  | undefined => "undefined"
  | any => "any"
  | unknown => "unknown"
  | never => "never"
  | void => "void"

def ofText? (text : String) : Option Keyword := all.find? (·.text == text)

end Keyword

structure Member (α : Type) where
  name : String
  type : α
  optional : Bool
deriving Repr

/-- A parameter of a function type. A rest parameter takes any number of arguments of its type. -/
structure Param (α : Type) where
  name : String
  type : α
  rest : Bool
deriving Repr

/-- A type expression. A documented type carries a comment, which is shown only in some places. -/
inductive TypeExpr where
  | keyword (word : Keyword)
  | literal (value : Json)
  | reference (name : String)
  | array (item : TypeExpr)
  | tuple (items : List TypeExpr) (rest : Option TypeExpr)
  | object (members : List (Member TypeExpr))
  | record (key value : TypeExpr)
  | union (members : List TypeExpr)
  | intersection (members : List TypeExpr)
  | function (params : List (Param TypeExpr)) (returns : TypeExpr)
  | documented (comment : String) (inner : TypeExpr)
deriving Repr, Inhabited

namespace TypeExpr

mutual

/-- Equality of types; the keys of literals may be in any order. -/
def same : TypeExpr → TypeExpr → Bool
  | keyword a, keyword b => a == b
  | literal a, literal b => a.same b
  | reference a, reference b => a == b
  | array a, array b => same a b
  | tuple a r, tuple b s => sameList a b && (match r, s with
      | some r, some s => same r s
      | none, none => true
      | _, _ => false)
  | object a, object b => sameMembers a b
  | record a x, record b y => same a b && same x y
  | union a, union b => sameList a b
  | intersection a, intersection b => sameList a b
  | function a x, function b y => sameParams a b && same x y
  | documented c a, documented d b => c == d && same a b
  | _, _ => false
termination_by structural t => t

def sameList : List TypeExpr → List TypeExpr → Bool
  | [], [] => true
  | a :: as, b :: bs => same a b && sameList as bs
  | _, _ => false
termination_by structural ts => ts

def sameMembers : List (Member TypeExpr) → List (Member TypeExpr) → Bool
  | [], [] => true
  | ⟨name, type, optional⟩ :: as, b :: bs =>
    name == b.name && same type b.type && optional == b.optional && sameMembers as bs
  | _, _ => false
termination_by structural members => members

def sameParams : List (Param TypeExpr) → List (Param TypeExpr) → Bool
  | [], [] => true
  | ⟨name, type, rest⟩ :: as, b :: bs =>
    name == b.name && same type b.type && rest == b.rest && sameParams as bs
  | _, _ => false
termination_by structural params => params

end

def bare : TypeExpr → TypeExpr
  | documented _ inner => bare inner
  | t => t

def comment? : TypeExpr → Option String
  | documented comment _ => some comment
  | _ => none

/-- The type with a comment, which takes the place of the outermost one. -/
def withComment (comment : String) : TypeExpr → TypeExpr
  | documented _ inner => documented comment inner
  | t => documented comment t

/-- The members that a type brings into a union: those of a union, without its comments, or the
type itself. -/
def unionParts (t : TypeExpr) : List TypeExpr :=
  match t.bare with
  | union members => members
  | _ => [t]

/-- A list without the members that are equal to an earlier one. -/
def distinct (parts : List TypeExpr) : List TypeExpr :=
  parts.foldl (fun found t => if found.any (·.same t) then found else found ++ [t]) []

/-- The union of types. A union of one type is that type, and one of none has no values. -/
def unionOf (types : List TypeExpr) : TypeExpr :=
  match distinct (types.flatMap unionParts) with
  | [] => keyword .never
  | [t] => t
  | parts => union parts

end TypeExpr

/-- A declaration: a name for a type, or an interface with members. -/
inductive Declaration where
  | typeAlias (name : String) (type : TypeExpr)
  | interface (name : String) (members : List (Member TypeExpr))
deriving Repr

def Declaration.name : Declaration → String
  | typeAlias name _ => name
  | interface name _ => name

end EventContracts.TypeScript
