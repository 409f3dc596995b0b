import EventContracts.Document.Basic
import EventContracts.Document.Depiction
import EventContracts.Event
import EventContracts.Text.Identifier

/-!
# Assembling documents

Namespaces are added to a draft one after the other. What a namespace adds before an error stays in
the draft: the components, and the operations of the events before the one with the error. Its
channel is added when all of its events are.
-/

namespace EventContracts

def Document.formatVersion : String := "3.0.0"

def Channel.socketBinding : String := "0.1.0"

structure Draft where
  channels : Fields Channel := []
  operations : Fields Operation := []
  components : AliasTable SchemaObject := Document.noComponents

namespace Draft

/-- A step of assembly. What it does to the draft stays done when it fails. -/
abbrev Step (α : Type) := ExceptT Halt (StateM Draft) α

def depicting {α : Type} (view : Document.View α) : Step α := fun draft =>
  let (result, components) := view draft.components
  (result, { draft with components := components })

/-- The word for the flow of an event in the identifiers of its messages. -/
def flowLabel : Direction → String
  | .input => "incoming"
  | .output => "outgoing"

def messageId (event : Event) : String :=
  Identifier.ofParts [event.name, flowLabel event.direction]

def ackId (event : Event) : String :=
  Identifier.ofParts [event.name, flowLabel event.direction, "ack"]

def operationId (channelId : String) (event : Event) : String :=
  Identifier.ofParts [channelId, (Action.ofDirection event.direction).name, event.name]

/-- Add the messages of an event to those of its channel, and make its operation. -/
def addEvent (setting : Setting) (ns : Namespace) (channelId : String) (messages : Fields Message)
    (event : Event) : Step (Fields Message) := do
  let payload ← depicting (Document.depict setting event.direction event.payload)
  let messages := Fields.set (messageId event) {
    name := event.name, title := event.name, summary := event.description, payload := payload,
    examples := event.examples } messages
  let (messages, reply) ← match event.ack with
    | none => pure (messages, none)
    | some ack => do
      let payload ← depicting (Document.depict setting event.direction.flip ack)
      let messages := Fields.set (ackId event) {
        name := event.name, title := "Acknowledgement for " ++ event.name, payload := payload }
        messages
      pure (messages, some ⟨.channel channelId, [.message channelId (ackId event)]⟩)
  let operation : Operation := {
    action := .ofDirection event.direction
    channel := .channel channelId
    messages := [.message channelId (messageId event)]
    summary := event.description
    security := ns.security.map Reference.securityScheme
    reply := reply }
  modify fun draft =>
    { draft with operations := Fields.set (operationId channelId event) operation draft.operations }
  return messages

def addNamespace (setting : Setting) (ns : Namespace) : Step Unit := do
  let channelId := Identifier.ofNamespace ns.path
  let messages ← ns.events.foldlM (addEvent setting ns channelId) []
  let channel : Channel := ⟨ns.path, messages, Channel.socketBinding⟩
  modify fun draft => { draft with channels := Fields.set channelId channel draft.channels }

def finish (draft : Draft) (config : Config) : Document :=
  let schemas := draft.components.definitions
  { version := Document.formatVersion
    info := config.info
    servers := config.servers
    channels := draft.channels
    operations := draft.operations
    components :=
      if schemas.isEmpty && config.securitySchemes.isEmpty then none
      else some ⟨schemas, config.securitySchemes⟩ }

end Draft

end EventContracts
