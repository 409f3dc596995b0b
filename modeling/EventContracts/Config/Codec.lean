import EventContracts.Config.Basic
import EventContracts.TextFormat

/-!
# Written configurations

How configurations are written as JSON values and read from any format. Every part of a
configuration may be missing; of a server and of a security scheme only the texts without default
have to be there.
-/

namespace EventContracts

open Format

variable {σ : Type} [Format σ]

def textField? (name : String) (text : Option String) : Fields Json :=
  SchemaObject.field? name (text.map .string)

namespace DocumentInfo

def toJson (info : DocumentInfo) : Json :=
  .object ([("title", .string info.title), ("version", .string info.version)] ++
    textField? "description" info.description)

def read? (part : σ) : Option DocumentInfo := do
  let record ← record? ["title", "version", "description"] part
  let info : DocumentInfo := {}
  return {
    title := ← orDefault? record "title" info.title text?
    version := ← orDefault? record "version" info.version text?
    description := ← optional? record "description" text? }

end DocumentInfo

namespace Server

def toJson (server : Server) : Json :=
  .object ([("host", .string server.host), ("protocol", .string server.protocol)] ++
    textField? "pathname" server.pathname ++ textField? "description" server.description)

def read? (part : σ) : Option Server := do
  let record ← record? ["host", "protocol", "pathname", "description"] part
  return {
    host := ← required? record "host" text?
    protocol := ← required? record "protocol" text?
    pathname := ← optional? record "pathname" text?
    description := ← optional? record "description" text? }

end Server

namespace SecurityScheme

def toJson (scheme : SecurityScheme) : Json :=
  .object ([("type", .string scheme.type)] ++ textField? "description" scheme.description ++
    textField? "name" scheme.name ++ textField? "in" scheme.location ++
    textField? "scheme" scheme.scheme ++ textField? "bearerFormat" scheme.bearerFormat)

def read? (part : σ) : Option SecurityScheme := do
  let record ← record? ["type", "description", "name", "in", "scheme", "bearerFormat"] part
  return {
    type := ← required? record "type" text?
    description := ← optional? record "description" text?
    name := ← optional? record "name" text?
    location := ← optional? record "in" text?
    scheme := ← optional? record "scheme" text?
    bearerFormat := ← optional? record "bearerFormat" text? }

end SecurityScheme

namespace OptionalStyle

def toJson (style : OptionalStyle) : Json :=
  .object [("withQuestionMark", .bool style.questionMark),
    ("withUndefined", .bool style.orUndefined)]

def read? (part : σ) : Option OptionalStyle := do
  let record ← record? ["withQuestionMark", "withUndefined"] part
  return {
    questionMark := ← orDefault? record "withQuestionMark" true flag?
    orUndefined := ← orDefault? record "withUndefined" true flag? }

end OptionalStyle

namespace TypeOptions

def toJson (options : TypeOptions) : Json :=
  .object [("maxOverloads", .whole options.maxOverloads),
    ("optionalProps", options.optional.toJson)]

def read? (part : σ) : Option TypeOptions := do
  let record ← record? ["maxOverloads", "optionalProps"] part
  let options : TypeOptions := {}
  return {
    maxOverloads := ← orDefault? record "maxOverloads" options.maxOverloads count?
    optional := ← orDefault? record "optionalProps" {} OptionalStyle.read? }

end TypeOptions

namespace Config

def mapJson {α : Type} (toJson : α → Json) (fields : Fields α) : Json :=
  .object (fields.map fun (name, a) => (name, toJson a))

def toJson (config : Config) : Json :=
  .object [("info", config.info.toJson), ("servers", mapJson Server.toJson config.servers),
    ("securitySchemes", mapJson SecurityScheme.toJson config.securitySchemes),
    ("typescript", config.types.toJson)]

def read? (part : σ) : Option Config := do
  let record ← record? ["info", "servers", "securitySchemes", "typescript"] part
  return {
    info := ← orDefault? record "info" {} DocumentInfo.read?
    servers := ← orDefault? record "servers" [] (mapOf? Server.read?)
    securitySchemes := ← orDefault? record "securitySchemes" [] (mapOf? SecurityScheme.read?)
    types := ← orDefault? record "typescript" {} TypeOptions.read? }

def ofText? : TextFormat → String → Option Config := TextFormat.read? read?

end Config

end EventContracts
