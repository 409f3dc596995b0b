import EventContracts.Error
import EventContracts.Json.Reader
import EventContracts.Json.Writer
import EventContracts.Yaml.Part
import EventContracts.Yaml.Writer

/-!
# Text formats

The formats in which manifests and configurations are read and documents are written.
-/

namespace EventContracts

inductive TextFormat where
  | json
  | yaml
deriving DecidableEq, Repr

namespace TextFormat

def ofName? (name : String) : Option TextFormat :=
  if name = "json" then some json else if name = "yaml" then some yaml else none

/-- The error of a text that is not what it should be. -/
def error : TextFormat → Error
  | json => .json
  | yaml => .yaml

def read? {α : Type} (reader : {σ : Type} → [Format σ] → σ → Option α) (format : TextFormat)
    (text : String) : Option α :=
  match format with
  | json => (Json.Written.ofText? text).bind reader
  | yaml => (Yaml.Part.ofText? text).bind reader

/-- The text of a value: indented JSON, or YAML in block style. -/
def write (format : TextFormat) (value : Json) : String :=
  match format with
  | json => value.indented
  | yaml => Yaml.write value

end TextFormat

end EventContracts
