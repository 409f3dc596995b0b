import EventContracts.Config.Codec
import EventContracts.Direction

/-!
# Event documents

The documented view of an event interface: channels with their messages, operations on them, and
the components that they share. Documents are written field by field in a fixed order and read from
JSON text.
-/

namespace EventContracts

open Format Json

/-- A place in a document that stands for another one. -/
structure Reference where
  target : String
deriving DecidableEq, Repr

namespace Reference

def toJson (r : Reference) : Json := .object [("$ref", .string r.target)]

def read? (part : Written) : Option Reference := do
  let record ← record? ["$ref"] part
  return ⟨← required? record "$ref" text?⟩

def channel (id : String) : Reference := ⟨"#/channels/" ++ id⟩

def message (channelId id : String) : Reference :=
  ⟨"#/channels/" ++ channelId ++ "/messages/" ++ id⟩

def securityScheme (name : String) : Reference := ⟨"#/components/securitySchemes/" ++ name⟩

end Reference

/-- A message: what is sent with an event or its acknowledgement. -/
structure Message where
  name : String
  title : String
  summary : Option String := none
  payload : SchemaObject
  examples : List Json := []

/-- A channel: a namespace with its messages. -/
structure Channel where
  address : String
  messages : Fields Message
  bindingVersion : String

/-- What is done with an event by the side that the document describes. -/
inductive Action where
  | send
  | receive
deriving DecidableEq, Repr

structure Reply where
  channel : Reference
  messages : List Reference

/-- An operation: sending or receiving the messages of an event. -/
structure Operation where
  action : Action
  channel : Reference
  messages : List Reference
  summary : Option String := none
  security : List Reference := []
  reply : Option Reply := none

structure Components where
  schemas : Fields SchemaObject := []
  securitySchemes : Fields SecurityScheme := []

structure Document where
  version : String
  info : DocumentInfo
  servers : Fields Server := []
  channels : Fields Channel
  operations : Fields Operation
  components : Option Components := none

def mapField? {α : Type} (name : String) (toJson : α → Json) (fields : Fields α) : Fields Json :=
  if fields.isEmpty then [] else [(name, Config.mapJson toJson fields)]

def listField? {α : Type} (name : String) (toJson : α → Json) (items : List α) : Fields Json :=
  if items.isEmpty then [] else [(name, .array (items.map toJson))]

namespace Message

/-- The value of an example: its payload alone. -/
def exampleJson (payload : Json) : Json := .object [("payload", payload)]

def toJson (m : Message) : Json :=
  .object ([("name", .string m.name), ("title", .string m.title)] ++
    textField? "summary" m.summary ++ [("payload", m.payload.toJson)] ++
    listField? "examples" exampleJson m.examples)

def readExample? (part : Written) : Option Json := do
  let record ← record? ["payload"] part
  required? record "payload" value?

def read? (part : Written) : Option Message := do
  let record ← record? ["name", "title", "summary", "payload", "examples"] part
  return {
    name := ← required? record "name" text?
    title := ← required? record "title" text?
    summary := ← optional? record "summary" text?
    payload := ← required? record "payload" SchemaObject.ofWritten?
    examples := ← orDefault? record "examples" [] (listOf? readExample?) }

end Message

namespace Channel

def toJson (c : Channel) : Json :=
  .object [("address", .string c.address), ("messages", Config.mapJson Message.toJson c.messages),
    ("bindings", .object [("ws", .object [("bindingVersion", .string c.bindingVersion)])])]

/-- Read the version of the bindings of a channel. -/
def readBindings? (part : Written) : Option String := do
  let bindings ← record? ["ws"] part
  let record ← required? bindings "ws" (record? ["bindingVersion"])
  required? record "bindingVersion" text?

def read? (part : Written) : Option Channel := do
  let record ← record? ["address", "messages", "bindings"] part
  return {
    address := ← required? record "address" text?
    messages := ← required? record "messages" (mapOf? Message.read?)
    bindingVersion := ← required? record "bindings" readBindings? }

end Channel

namespace Action

def name : Action → String
  | send => "send"
  | receive => "receive"

def ofName? (name : String) : Option Action :=
  if name = "send" then some send else if name = "receive" then some receive else none

/-- Read an action: its word, or an object that holds nothing under it. -/
def read? : Written → Option Action
  | .text (some name) => ofName? name
  | .object [(some name, .null)] => ofName? name
  | _ => none

/-- The side that the document describes receives input and sends output. -/
def ofDirection : Direction → Action
  | .input => receive
  | .output => send

end Action

namespace Reply

def toJson (r : Reply) : Json :=
  .object [("channel", r.channel.toJson), ("messages", .array (r.messages.map Reference.toJson))]

def read? (part : Written) : Option Reply := do
  let record ← record? ["channel", "messages"] part
  return {
    channel := ← required? record "channel" Reference.read?
    messages := ← required? record "messages" (listOf? Reference.read?) }

end Reply

namespace Operation

def toJson (o : Operation) : Json :=
  .object ([("action", .string o.action.name), ("channel", o.channel.toJson),
    ("messages", .array (o.messages.map Reference.toJson))] ++ textField? "summary" o.summary ++
    listField? "security" Reference.toJson o.security ++
    SchemaObject.field? "reply" (o.reply.map Reply.toJson))

def read? (part : Written) : Option Operation := do
  let record ← record? ["action", "channel", "messages", "summary", "security", "reply"] part
  return {
    action := ← required? record "action" Action.read?
    channel := ← required? record "channel" Reference.read?
    messages := ← required? record "messages" (listOf? Reference.read?)
    summary := ← optional? record "summary" text?
    security := ← orDefault? record "security" [] (listOf? Reference.read?)
    reply := ← optional? record "reply" Reply.read? }

end Operation

namespace Components

def toJson (c : Components) : Json :=
  .object (mapField? "schemas" SchemaObject.toJson c.schemas ++
    mapField? "securitySchemes" SecurityScheme.toJson c.securitySchemes)

def read? (part : Written) : Option Components := do
  let record ← record? ["schemas", "securitySchemes"] part
  return {
    schemas := ← orDefault? record "schemas" [] (mapOf? SchemaObject.ofWritten?)
    securitySchemes := ← orDefault? record "securitySchemes" [] (mapOf? SecurityScheme.read?) }

end Components

namespace Document

def toJson (d : Document) : Json :=
  .object ([("asyncapi", .string d.version), ("info", d.info.toJson)] ++
    mapField? "servers" Server.toJson d.servers ++
    [("channels", Config.mapJson Channel.toJson d.channels),
      ("operations", Config.mapJson Operation.toJson d.operations)] ++
    SchemaObject.field? "components" (d.components.map Components.toJson))

def read? (part : Written) : Option Document := do
  let record ←
    record? ["asyncapi", "info", "servers", "channels", "operations", "components"] part
  return {
    version := ← required? record "asyncapi" text?
    info := ← required? record "info" DocumentInfo.read?
    servers := ← orDefault? record "servers" [] (mapOf? Server.read?)
    channels := ← required? record "channels" (mapOf? Channel.read?)
    operations := ← required? record "operations" (mapOf? Operation.read?)
    components := ← optional? record "components" Components.read? }

def ofJsonText? (text : String) : Option Document := (Written.ofText? text).bind read?

end Document

end EventContracts
