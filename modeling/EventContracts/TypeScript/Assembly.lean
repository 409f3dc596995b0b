import EventContracts.Event
import EventContracts.Text.Identifier
import EventContracts.TypeScript.Depiction
import EventContracts.TypeScript.Printer

/-!
# Assembling type declarations

Every event becomes a declared function type, and every namespace two interfaces that list the
events of its two directions. What a namespace adds before an error stays.
-/

namespace EventContracts.TypeScript

/-- Declarations in the making, and the aliases that they use. -/
structure Draft where
  aliases : AliasTable TypeExpr := noAliases
  declarations : List Declaration := []

namespace Draft

/-- A step of assembly. What it does to the draft stays done when it fails. -/
abbrev Step (α : Type) := ExceptT Halt (StateM Draft) α

def depicting {α : Type} (view : View α) : Step α := fun draft =>
  let (result, aliases) := view draft.aliases
  (result, { draft with aliases := aliases })

def declare (declaration : Declaration) : Step Unit :=
  modify fun draft => { draft with declarations := draft.declarations ++ [declaration] }

/-- The word for the events of a direction in the names of their types. -/
def eventWord : Direction → String
  | .input => "Action"
  | .output => "Emission"

def interfaceWord : Direction → String
  | .input => "Actions"
  | .output => "Emission"

def eventName (namespaceId : String) (event : Event) : String :=
  Identifier.ofParts [namespaceId, event.name, eventWord event.direction]

/-- Declare the type of an event, and give the member that stands for it in its interface. -/
def addEvent (setting : Setting) (options : TypeOptions) (namespaceId : String)
    (members : List (Member TypeExpr)) (event : Event) : Step (List (Member TypeExpr)) := do
  let name := eventName namespaceId event
  let type ← depicting
    (depict setting options.optional event.direction (event.handlerOf options.maxOverloads))
  declare (.typeAlias name type)
  return members ++ [⟨event.name, .reference name, false⟩]

/-- Declare the events of a namespace that flow in a direction, and then their interface. -/
def addDirection (setting : Setting) (options : TypeOptions) (ns : Namespace)
    (direction : Direction) : Step Unit := do
  let namespaceId := Identifier.ofNamespace ns.path
  let members ← (ns.eventsIn direction).foldlM (addEvent setting options namespaceId) []
  declare (.interface (namespaceId ++ interfaceWord direction) members)

def addNamespace (setting : Setting) (options : TypeOptions) (ns : Namespace) : Step Unit := do
  addDirection setting options ns .input
  addDirection setting options ns .output

/-- All declarations: those of the aliases come first. -/
def finish (draft : Draft) : List Declaration :=
  aliasDeclarations draft.aliases ++ draft.declarations

end Draft

end EventContracts.TypeScript
