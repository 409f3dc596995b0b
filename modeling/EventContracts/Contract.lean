import EventContracts.Event
import EventContracts.Manifest.Basic
import EventContracts.Manifest.Spec

/-!
# Contracts

What a manifest means: its events with schema trees in the place of specs, and its definitions as
the named schemas that references in these trees stand for. Every definition is converted before the
first event, so a manifest with a spec that is not as it has to be has no meaning at all.
-/

namespace EventContracts

/-- Events in their namespaces, and the named schemas that they refer to. -/
structure Contract where
  namespaces : List Namespace
  definitions : Definitions

open Spec

namespace EventSpec

/-- The schema of the arguments of an event at a path. Only a list of arguments can go on with a
further one. -/
def payload (spec : EventSpec) (defined : List String) (path : String) : Converted Node := do
  let node ← match spec.args with
    | some args => toArguments defined args s!"{path}.args"
    | none => pure (.of (.tuple [] none))
  match spec.rest with
  | none => return node
  | some rest =>
    let rest ← toNode defined rest s!"{path}.rest"
    if node.tupleParts?.isSome then return .mk (node.kind.withRest rest) node.notes
    else invalid path (Text.ticked "rest" ++ " requires a list of arguments")

/-- The event of a name that flows in a direction, at a path. -/
def toEvent (defined : List String) (direction : Direction) (name : String) (spec : EventSpec)
    (path : String) : Converted Event := do
  return {
    name := name
    direction := direction
    payload := ← spec.payload defined path
    ack := ← spec.ack.mapM fun ack => toArguments defined ack s!"{path}.ack"
    examples := spec.examples
    description := spec.description }

end EventSpec

namespace NamespaceSpec

def toEvents (defined : List String) (direction : Direction) (place : String)
    (events : Fields EventSpec) : Converted (List Event) :=
  events.mapM fun (name, spec) => spec.toEvent defined direction name s!"{place}.{name}"

/-- The namespace of a path. Events that flow in come first. -/
def toNamespace (defined : List String) (path : String) (spec : NamespaceSpec) :
    Converted Namespace := do
  let actions ← toEvents defined .input s!"namespaces.{path}.actions" spec.actions
  let emission ← toEvents defined .output s!"namespaces.{path}.emission" spec.emission
  return ⟨path, spec.security, actions ++ emission⟩

end NamespaceSpec

namespace Manifest

def toDefinitions (manifest : Manifest) : Converted Definitions :=
  manifest.definitions.mapM fun (name, spec) => do
    return (name, ← toNode manifest.definitions.names spec (Parts.referenceKey name))

def toContract (manifest : Manifest) : Converted Contract := do
  let definitions ← manifest.toDefinitions
  let namespaces ← manifest.namespaces.mapM fun (path, spec) =>
    spec.toNamespace manifest.definitions.names path
  return ⟨namespaces, definitions⟩

end Manifest

end EventContracts
