import EventContracts.Config.Codec

/-!
# Manifests

A manifest lists the events of namespaces, with specs of their data, beside named specs and a
configuration. Specs are kept as values here; what they mean is said elsewhere. Several manifests
can be merged into one.
-/

namespace EventContracts

open Format

/-- What a manifest says about an event: the specs of its arguments, of a further argument, and of
the arguments of its acknowledgement. -/
structure EventSpec where
  args : Option Json := none
  rest : Option Json := none
  ack : Option Json := none
  examples : List Json := []
  description : Option String := none

/-- What a manifest says about a namespace: the security schemes that protect it, the events that
flow out of it, and those that flow in. -/
structure NamespaceSpec where
  security : List String := []
  emission : Fields EventSpec := []
  actions : Fields EventSpec := []

structure Manifest where
  config : Config := {}
  definitions : Fields Json := []
  namespaces : Fields NamespaceSpec := []

variable {σ : Type} [Format σ]

namespace EventSpec

def toJson (spec : EventSpec) : Json :=
  .object ([("args", spec.args.getD .null), ("rest", spec.rest.getD .null),
    ("ack", spec.ack.getD .null)] ++
    (if spec.examples.isEmpty then [] else [("examples", .array spec.examples)]) ++
    [("description", .ofText? spec.description)])

def read? (part : σ) : Option EventSpec := do
  let record ← record? ["args", "rest", "ack", "examples", "description"] part
  return {
    args := ← optional? record "args" value?
    rest := ← optional? record "rest" value?
    ack := ← optional? record "ack" value?
    examples := ← orDefault? record "examples" [] (listOf? value?)
    description := ← optional? record "description" text? }

end EventSpec

namespace NamespaceSpec

def toJson (spec : NamespaceSpec) : Json :=
  .object [("security", .strings spec.security),
    ("emission", Config.mapJson EventSpec.toJson spec.emission),
    ("actions", Config.mapJson EventSpec.toJson spec.actions)]

def read? (part : σ) : Option NamespaceSpec := do
  let record ← record? ["security", "emission", "actions"] part
  return {
    security := ← orDefault? record "security" [] (listOf? text?)
    emission := ← orDefault? record "emission" [] (mapOf? EventSpec.read?)
    actions := ← orDefault? record "actions" [] (mapOf? EventSpec.read?) }

end NamespaceSpec

namespace Manifest

def toJson (manifest : Manifest) : Json :=
  .object [("config", manifest.config.toJson), ("definitions", .object manifest.definitions),
    ("namespaces", Config.mapJson NamespaceSpec.toJson manifest.namespaces)]

def read? (part : σ) : Option Manifest := do
  let record ← record? ["config", "definitions", "namespaces"] part
  return {
    config := ← orDefault? record "config" {} Config.read?
    definitions := ← orDefault? record "definitions" [] (mapOf? value?)
    namespaces := ← orDefault? record "namespaces" [] (mapOf? NamespaceSpec.read?) }

def ofText? : TextFormat → String → Option Manifest := TextFormat.read? read?

end Manifest

/-- Names with one more at the end, unless it is among them. -/
def insertName (names : List String) (name : String) : List String :=
  if names.contains name then names else names ++ [name]

def NamespaceSpec.merge (spec later : NamespaceSpec) : NamespaceSpec where
  security := later.security.foldl insertName spec.security
  emission := Fields.merge spec.emission later.emission
  actions := Fields.merge spec.actions later.actions

namespace Manifest

/-- Merge what is said about a namespace into the namespaces of a manifest. -/
def mergeNamespace (namespaces : Fields NamespaceSpec) (entry : String × NamespaceSpec) :
    Fields NamespaceSpec :=
  let spec := (Fields.get? entry.1 namespaces).getD {}
  Fields.set entry.1 (spec.merge entry.2) namespaces

/-- Merge a later manifest into one. Of two definitions or events of the same name the later one
counts, and a configuration counts when it is not the default one. -/
def merge (manifest later : Manifest) : Manifest where
  config := if later.config.same {} then manifest.config else later.config
  definitions := Fields.merge manifest.definitions later.definitions
  namespaces := later.namespaces.foldl mergeNamespace manifest.namespaces

end Manifest

end EventContracts
