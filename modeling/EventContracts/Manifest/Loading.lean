import EventContracts.Files.Tree
import EventContracts.Manifest.Basic

/-!
# Loading manifests

Manifests are found by the extension of their files, everywhere below a directory but in hidden
places and in those of other tools, and merged in the order of their paths. A file that is given
itself is a manifest whatever its name, and has to be readable; below a directory, files that are
not manifests are passed over.
-/

namespace EventContracts

inductive LoadError where
  | missing (path : String)
  | noManifests (path : String)
  | unreadable (path : String) (cause : Error)
deriving DecidableEq, Repr

namespace LoadError

def message : LoadError → String
  | missing path => s!"Path does not exist: {path}"
  | noManifests path => s!"No manifests found under {path}"
  | unreadable path _ => s!"Failed to load manifest: {path}"

def cause? : LoadError → Option Error
  | unreadable _ cause => some cause
  | _ => none

end LoadError

/-- What is found in a directory: files with their texts, and the directories that do not show
their entries. -/
structure Listing where
  files : List (String × Option String) := []
  closed : List String := []

namespace Listing

/-- Two listings after each other. -/
def append (listing later : Listing) : Listing :=
  ⟨listing.files ++ later.files, listing.closed ++ later.closed⟩

/-- Listings of the entries of a directory after each other, in the order of their names. -/
def sorted (listings : List (String × Listing)) : Listing :=
  (listings.mergeSort fun a b => decide (a.1 ≤ b.1)).foldl (fun all entry => all.append entry.2) {}

end Listing

def Manifest.extensions : List String := ["yaml", "yml", "json"]

def Manifest.isPath (path : String) : Bool := (Path.extension? path).any extensions.contains

def TextFormat.ofPath (path : String) : TextFormat :=
  if Path.extension? path = some "json" then .json else .yaml

/-- Whether a search passes over an entry of a directory. -/
def Listing.passesOver (name : String) : Bool :=
  name.startsWith "." || name = "target" || name = "node_modules"

namespace FileTree

mutual

def manifests (path : String) : FileTree → Listing
  | file text => if Manifest.isPath path then { files := [(path, text)] } else {}
  | directory entries => .sorted (manifestsOf path entries)
  | closed => { closed := [path] }
termination_by structural tree => tree

/-- The manifests of the entries of a directory at a path. -/
def manifestsOf (path : String) : List (String × FileTree) → List (String × Listing)
  | [] => []
  | (name, tree) :: rest =>
    (name, if Listing.passesOver name then {} else manifests (Path.child path name) tree) ::
      manifestsOf path rest
termination_by structural entries => entries

end

/-- The manifests of what is found at a path. A file is the only one. -/
def scan (path : String) (found : Option FileTree) : Except LoadError Listing :=
  match found with
  | none => .error (.missing path)
  | some (file text) => .ok { files := [(path, text)] }
  | some tree => .ok (tree.manifests path)

end FileTree

namespace Manifest

def ofFile (path : String) (text : Option String) : Except Error Manifest :=
  match text with
  | none => .error .io
  | some text =>
    let format := TextFormat.ofPath path
    match ofText? format text with
    | some manifest => .ok manifest
    | none => .error format.error

def ofListing (listing : Listing) : Manifest :=
  listing.files.foldl (fun merged (path, text) =>
    match ofFile path text with
    | .ok manifest => merged.merge manifest
    | .error _ => merged) {}

/-- The manifest of what is found at a path: of a file, or of all manifests below a directory. -/
def load (path : String) (found : Option FileTree) : Except LoadError Manifest := do
  let listing ← FileTree.scan path found
  match found with
  | some (.file text) => (ofFile path text).mapError (LoadError.unreadable path)
  | _ => if listing.files.isEmpty then throw (.noManifests path) else return ofListing listing

end Manifest

end EventContracts
