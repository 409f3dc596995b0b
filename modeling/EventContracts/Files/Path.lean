/-!
# Paths

Texts that lead to a place in a file tree. The parts between slashes are names, or marks for the
place itself (also when there is nothing between two slashes, or before the first one) and for the
directory around it.
-/

namespace EventContracts.Path

def parts (path : String) : List String := (path.toList.splitOn '/').map String.ofList

def isHere (part : String) : Bool := part.isEmpty || part = "."

def isName (part : String) : Bool := !isHere part && part ≠ ".."

def isText (path : String) : Bool := !path.toList.contains (Char.ofNat 0)

/-- Whether a file can have a name: it is short enough and has no zero character. -/
def isUsable (name : String) : Bool := name.utf8ByteSize ≤ 255 && isText name

/-- Parts without those at the end that stand for the place itself. The first part stays. -/
def trimEnd : List String → List String
  | [] => []
  | first :: rest => first :: (rest.reverse.dropWhile isHere).reverse

/-- The path of the directory that holds the last part of a path. A single part is held by the
empty path. -/
def parent (path : String) : String :=
  String.intercalate "/" (trimEnd (trimEnd (parts path)).dropLast)

def child (path name : String) : String :=
  if path.endsWith "/" then path ++ name else path ++ "/" ++ name

/-- What follows the last point of a name; none without a point, or with only one in front. -/
def nameExtension? (name : String) : Option String :=
  let chars := name.toList.reverse
  let after := chars.takeWhile (· ≠ '.')
  match chars.dropWhile (· ≠ '.') with
  | _ :: _ :: _ => some (String.ofList after.reverse)
  | _ => none

def extension? (path : String) : Option String :=
  match (trimEnd (parts path)).getLast? with
  | some name => if isName name then nameExtension? name else none
  | none => none

end EventContracts.Path
