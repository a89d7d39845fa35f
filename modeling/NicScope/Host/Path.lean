/-
Paths as text. A path is absolute if it begins with a slash; joining an absolute
path to another gives the absolute one. What counts is the components between
slashes, so several slashes are as good as one, and whether there is a slash at
the end: what stands before it must be a directory.
-/

import NicScope.Text.Cut

namespace NicScope.Path

def isAbsolute (path : String) : Bool :=
  path.toList.head? == some '/'

/-- Whether the form of a path says that it names a directory. -/
def namesDirectory (path : String) : Bool :=
  path.toList.getLast? == some '/'

/-- The path `part` as seen from the directory `base`. -/
def join (base part : String) : String :=
  if isAbsolute part || base.isEmpty then part
  else if namesDirectory base then base ++ part
  else base ++ "/" ++ part

/-- The components of a path, without the empty ones. -/
def components (path : String) : List String :=
  ((Cut.all '/' path.toList).filter fun part => !part.isEmpty).map String.ofList

/-- The components of a path, and an empty one for a slash at the end. -/
def steps (path : String) : List String :=
  components path ++ if namesDirectory path then [""] else []

/-- The components of a path, without those that stand for the directory itself. -/
def names (path : String) : List String :=
  (components path).filter (· != ".")

/-- The directories above a path, the nearest first, up to the first of its names. -/
def parents (path : String) : List String :=
  let base := if isAbsolute path then "/" else ""
  let names := names path
  (List.range' 1 (names.length - 1)).reverse.map fun count =>
    base ++ "/".intercalate (names.take count)

/-- The name that a path ends with; a path that ends with the parent directory has
none. -/
def fileName? (path : String) : Option String :=
  match (names path).getLast? with
  | some name => if name == ".." then none else some name
  | none => none

end NicScope.Path
