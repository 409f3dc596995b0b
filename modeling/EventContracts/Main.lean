import EventContracts.CommandLine.Run

/-!
# The program

Reads what is found at the path of the manifests, and writes or shows the artifacts made from it.
-/

namespace EventContracts.CommandLine

def readText (path : String) : IO (Option String) := do
  try
    return String.fromUTF8? (← IO.FS.readBinFile path)
  catch _ => return none

/-- Everything at a path. The texts of files that are no manifests are not read. -/
partial def readTree (path : String) (isRoot : Bool) : IO FileTree := do
  let place ← IO.FS.realPath path
  if ← place.isDir then
    try
      let entries ← (← place.readDir).toList.mapM fun entry => do
        let name := entry.fileName
        if Listing.passesOver name then return (name, .closed)
        return (name, ← readTree (Path.child path name) false)
      return .directory entries
    catch _ => return .closed
  else return .file (← if isRoot || Manifest.isPath path then readText path else pure none)

def findTree (path : String) : IO (Option FileTree) := do
  try
    return some (← readTree path true)
  catch _ => return none

def succeeds (action : IO Unit) : IO Bool := do
  try
    action
    return true
  catch _ => return false

/-- The files of the machine; what is written is told when asked for. -/
def machine (verbose : Bool) : Disk IO where
  find := findTree
  makeDirectories path := succeeds do unless path.isEmpty do IO.FS.createDirAll path
  writeFile path text := do
    let written ← succeeds (IO.FS.writeFile path text)
    if verbose && written then IO.eprintln s!"Wrote {path}"
    return written

def report (e : RunError) : IO UInt32 := do
  IO.eprintln s!"Error: {e.message}"
  match e.cause? with
  | some (.error cause) => cause.message?.forM fun message => IO.eprintln s!"Caused by: {message}"
  | _ => pure ()
  return 1

end EventContracts.CommandLine

open EventContracts CommandLine in
/-- Do what the arguments of the command line ask for. -/
def main (args : List String) : IO UInt32 := do
  match Arguments.read? args with
  | none =>
    IO.eprintln "Usage: event-contracts [OPTIONS] <MANIFEST>"
    return 2
  | some arguments =>
    match ← (machine arguments.verbose).run arguments with
    | .error e => report e
    | .ok shown =>
      shown.forM IO.println
      return 0
