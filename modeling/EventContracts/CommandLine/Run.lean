import EventContracts.Artifacts
import EventContracts.CommandLine.Arguments
import EventContracts.Manifest.Loading

/-!
# Runs

From arguments to written artifacts. Both artifacts are generated before the first one is written.
The document is written before the types, so it stays when only the types cannot be written.
-/

namespace EventContracts.CommandLine

inductive RunError where
  | noManifest (path : String)
  | load (cause : LoadError)
  | contract (cause : Error)
  | generation (cause : Halt)
  | directory (path : String)
  | file (path : String)
deriving DecidableEq, Repr

namespace RunError

def message : RunError → String
  | noManifest path => s!"Manifest path does not exist: {path}"
  | load cause => cause.message
  | contract _ => "Failed to load event schemas"
  | generation _ => "Generation failed"
  | directory path => s!"Failed to create directory: {path}"
  | file path => s!"Failed to write to file: {path}"

def cause? : RunError → Option Halt
  | load cause => cause.cause?.map Halt.error
  | contract cause => some (.error cause)
  | generation cause => some cause
  | _ => none

end RunError

namespace Arguments

/-- The artifacts that are asked for, from what is found at the path of the manifests. -/
def artifacts (arguments : Arguments) (found : Option FileTree) : Except RunError Artifacts := do
  if found.isNone then throw (.noManifest arguments.manifest)
  let manifest ← (Manifest.load arguments.manifest found).mapError RunError.load
  let contract ← manifest.toContract.mapError RunError.contract
  (contract.generate (manifest.config.apply arguments.overrides)).mapError RunError.generation

def docsText (arguments : Arguments) (artifacts : Artifacts) : String :=
  arguments.format.write artifacts.document.toJson

/-- The files to write, with their texts, in order. -/
def outputs (arguments : Arguments) (artifacts : Artifacts) : List (String × String) :=
  (arguments.docs.toList.map fun path => (path, arguments.docsText artifacts)) ++
    arguments.types.toList.map fun path => (path, artifacts.types)

/-- The text to show, when no file is to be written. -/
def shown? (arguments : Arguments) (artifacts : Artifacts) : Option String :=
  if arguments.docs.isNone && arguments.types.isNone then some (arguments.docsText artifacts)
  else none

end Arguments

/-- What a run does with files: it looks at a path, makes the directories of a path, and writes a
file. The last two say whether they succeed. -/
structure Disk (m : Type → Type) where
  find : String → m (Option FileTree)
  makeDirectories : String → m Bool
  writeFile (path text : String) : m Bool

namespace Disk

variable {m : Type → Type} [Monad m] (disk : Disk m)

/-- Write a file, and make the directories that hold it. -/
def writeOutput (output : String × String) : ExceptT RunError m Unit := do
  let (path, text) := output
  let parent := Path.parent path
  if !(← disk.makeDirectories parent) then throw (.directory parent)
  if !(← disk.writeFile path text) then throw (.file path)

/-- Do what the arguments ask for: the text to show, when there is any. -/
def run (arguments : Arguments) : ExceptT RunError m (Option String) := do
  let artifacts ← match arguments.artifacts (← disk.find arguments.manifest) with
    | .ok artifacts => pure artifacts
    | .error e => throw e
  (arguments.outputs artifacts).forM disk.writeOutput
  return arguments.shown? artifacts

/-- The files of a tree. Directories that were made stay when another one cannot be made. -/
def ofTree : Disk (StateM FileTree) where
  find path := do return (← get).at? path
  makeDirectories path := modifyGet fun tree => (tree.makeDirectories path).swap
  writeFile path text := modifyGet fun tree =>
    match tree.writeFile path text with
    | some after => (true, after)
    | none => (false, tree)

end Disk

/-- A run among the files of a tree. What it has written stays when it fails. -/
abbrev Run (α : Type) := ExceptT RunError (StateM FileTree) α

def writeOutput (output : String × String) : Run Unit := Disk.ofTree.writeOutput output

def run (arguments : Arguments) : Run (Option String) := Disk.ofTree.run arguments

end EventContracts.CommandLine
