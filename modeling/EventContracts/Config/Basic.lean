import EventContracts.Fields

/-!
# Configuration

What is said about an event interface as a whole, and how its types are written.
-/

namespace EventContracts

/-- Title, version and description of an interface. -/
structure DocumentInfo where
  title : String := "Event API"
  version : String := "0.1.0"
  description : Option String := none
deriving DecidableEq, Repr

structure Server where
  host : String
  protocol : String
  pathname : Option String := none
  description : Option String := none
deriving DecidableEq, Repr

structure SecurityScheme where
  type : String
  description : Option String := none
  name : Option String := none
  location : Option String := none
  scheme : Option String := none
  bearerFormat : Option String := none
deriving DecidableEq, Repr

/-- How members that may be missing are typed: with a question mark, and with `undefined` among
their values. -/
structure OptionalStyle where
  questionMark : Bool := true
  orUndefined : Bool := true
deriving DecidableEq, Repr

/-- How types are written. Events with an acknowledgement are written out with up to this many
repeated last arguments. -/
structure TypeOptions where
  maxOverloads : Nat := 3
  optional : OptionalStyle := {}
deriving DecidableEq, Repr

structure Config where
  info : DocumentInfo := {}
  servers : Fields Server := []
  securitySchemes : Fields SecurityScheme := []
  types : TypeOptions := {}
deriving Repr

/-- Whether two maps have the same entries, in any order. -/
def Fields.sameEntries {α : Type} [DecidableEq α] (a b : Fields α) : Bool :=
  a.length == b.length && a.all fun entry => Fields.get? entry.1 b == some entry.2

def Config.same (a b : Config) : Bool :=
  a.info == b.info && Fields.sameEntries a.servers b.servers &&
    Fields.sameEntries a.securitySchemes b.securitySchemes && a.types == b.types

/-- What a caller wants to have otherwise than configured. -/
structure Overrides where
  title : Option String := none
  version : Option String := none
  maxOverloads : Option Nat := none
  noQuestionMark : Bool := false
  noUndefined : Bool := false
deriving DecidableEq, Repr

/-- A configuration with overrides in the place of what is configured. -/
def Config.apply (config : Config) (overrides : Overrides) : Config :=
  let style := config.types.optional
  { config with
    info := { config.info with
      title := overrides.title.getD config.info.title
      version := overrides.version.getD config.info.version }
    types := {
      maxOverloads := overrides.maxOverloads.getD config.types.maxOverloads
      optional := {
        questionMark := style.questionMark && !overrides.noQuestionMark
        orUndefined := style.orUndefined && !overrides.noUndefined } } }

end EventContracts
