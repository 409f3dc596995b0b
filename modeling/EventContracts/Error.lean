import EventContracts.Direction
import EventContracts.Schema.Issue

/-!
# Errors

What can go wrong while artifacts are made from schemas and manifests.
-/

namespace EventContracts

inductive Error where
  | unsupportedKind (kind : String) (direction : Direction)
  | invalidSchema (path message : String)
  | unknownReference (name : String)
  | unknownTransform (name : String)
  | io
  | json
  | yaml
deriving DecidableEq, Repr

namespace Error

/-- The wording of an error; errors of reading and writing have no wording of their own. -/
def message? : Error → Option String
  | unsupportedKind kind direction =>
    some ("unsupported schema kind " ++ Text.ticked kind ++ s!" ({direction.text} direction)")
  | invalidSchema path message => some s!"invalid schema at {path}: {message}"
  | unknownReference name => some ("reference to undefined schema " ++ Text.ticked name)
  | unknownTransform name => some ("unknown transform " ++ Text.ticked name)
  | io => none
  | json => none
  | yaml => none

end Error

/-- Why a computation on schemas ends without a result: an error, or an interruption of a
validation on the way. -/
inductive Halt where
  | error (e : Error)
  | interrupted (cause : Interruption)
deriving DecidableEq, Repr

end EventContracts
