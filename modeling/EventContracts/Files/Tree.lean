import EventContracts.Fields
import EventContracts.Files.Path

/-!
# File trees

All files, as a value. Paths lead on from the root of the tree, those with a slash in front too, and
around the root there is nothing but the root itself.
-/

namespace EventContracts

/-- A file, with its text unless it has none that can be read; a directory with its entries; or a
directory that does not show its entries. -/
inductive FileTree where
  | file (text : Option String)
  | directory (entries : List (String × FileTree))
  | closed
deriving Inhabited

namespace FileTree

def isDirectory : FileTree → Bool
  | file _ => false
  | directory _ => true
  | closed => true

/-- Whether a tree is a directory that takes new entries. -/
def isOpen : FileTree → Bool
  | directory _ => true
  | _ => false

def entry? (name : String) : FileTree → Option FileTree
  | directory entries => Fields.get? name entries
  | _ => none

/-- The tree at a place, given by the names that lead to it. -/
def get? (tree : FileTree) (place : List String) : Option FileTree :=
  place.foldlM (fun tree name => tree.entry? name) tree

/-- The tree with another one at a place below it. Only directories hold places. -/
def put (tree : FileTree) (place : List String) (new : FileTree) : FileTree :=
  match place, tree with
  | [], _ => new
  | name :: place, directory entries =>
    let old := (Fields.get? name entries).getD (directory [])
    directory (Fields.set name (old.put place new) entries)
  | _, tree => tree

def hasDirectory (tree : FileTree) (place : List String) : Bool := (tree.get? place).any isDirectory

/-- Whether there is a directory at a place that takes new entries. -/
def hasOpenDirectory (tree : FileTree) (place : List String) : Bool := (tree.get? place).any isOpen

/-- The place that a part of a path leads to from a directory. -/
def follow? (tree : FileTree) (place : List String) (part : String) : Option (List String) :=
  if !tree.hasDirectory place then none
  else if Path.isHere part then some place
  else if part = ".." then some place.dropLast
  else if (tree.get? (place ++ [part])).isSome then some (place ++ [part])
  else none

def place? (tree : FileTree) (parts : List String) : Option (List String) :=
  parts.foldlM tree.follow? []

/-- The tree at a path. The empty path leads nowhere. -/
def at? (tree : FileTree) (path : String) : Option FileTree :=
  if path.isEmpty then none else (tree.place? (Path.parts path)).bind tree.get?

def textAt? (tree : FileTree) (path : String) : Option String :=
  match tree.at? path with
  | some (file text) => text
  | _ => none

/-- Follow a part of a path, making a directory where there is nothing. -/
def makePart (state : FileTree × List String) (part : String) :
    Option (FileTree × List String) :=
  let (tree, place) := state
  match tree.follow? place part with
  | some place => if tree.hasDirectory place then some (tree, place) else none
  | none =>
    if tree.hasOpenDirectory place && Path.isName part && Path.isUsable part then
      some (tree.put (place ++ [part]) (directory []), place ++ [part])
    else none

/-- Follow parts of a path as far as possible, making directories where there is nothing: the tree
with those that were made, and whether all parts were followed. -/
def makeParts (state : FileTree × List String) : List String → FileTree × Bool
  | [] => (state.1, true)
  | part :: rest => match makePart state part with
    | some next => makeParts next rest
    | none => (state.1, false)

/-- Make the directories of a path that are not there, as far as possible. The empty path has
none. -/
def makeDirectories (tree : FileTree) (path : String) : FileTree × Bool :=
  if path.isEmpty then (tree, true)
  else if !Path.isText path then (tree, false)
  else makeParts (tree, []) (Path.parts path)

/-- Write a file in a directory that is there. What was in the file before is gone. -/
def writeFile (tree : FileTree) (path text : String) : Option FileTree :=
  let parts := Path.parts path
  let name := parts.getLast?.getD ""
  if !Path.isName name || !Path.isUsable name then none
  else do
    let place ← tree.place? parts.dropLast
    if !tree.hasOpenDirectory place || tree.hasDirectory (place ++ [name]) then none
    else return tree.put (place ++ [name]) (file (some text))

/-- The tree with a file or a directory added, and the directories that hold it. -/
def insert (tree : FileTree) (path : String) (new : FileTree) : FileTree :=
  tree.put ((Path.parts path).filter Path.isName) new

end FileTree

end EventContracts
