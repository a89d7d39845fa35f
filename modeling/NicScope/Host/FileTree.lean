/-
The files of a host. A tree has directories, files with a mode and contents, and
symbolic links, each under the names that lead to it from the root; the root is
always there. A path is walked component by component, through links, of which
at most forty may be met; a slash at the end of a path or of a link says that a
directory comes before it. Operations fail where the system would, with the same
error. A file has a single name, and there is always room for more: hard links and
the limits of a disk are not modelled.
-/

import NicScope.Error.Basic
import NicScope.Host.Path
import NicScope.Wire.Bytes

namespace NicScope

/-- The names that lead from the root to a node. -/
abbrev Key := List String

inductive Node where
  | directory
  | file (mode : Nat) (content : Bytes)
  | link (target : String)
  deriving DecidableEq, Repr

/-- All files of a host, and the directory that relative paths start from. -/
structure FileTree where
  nodes : List (Key × Node)
  workingDirectory : Key := []
  deriving DecidableEq, Repr

/-- Where a path leads: to a node, or to a name that is free in a directory. -/
structure Place where
  key : Key
  node : Option Node
  deriving DecidableEq, Repr

/-- What a path is walked for. -/
inductive Purpose where
  /-- To find what the last name stands for, be it a link. -/
  | name
  /-- To find what the last name leads to. -/
  | target
  /-- To find what the last name leads to, or to make a file there. -/
  | newFile
  /-- To make a directory of the last name. -/
  | newDirectory
  deriving DecidableEq, Repr

namespace Purpose

/-- Whether a link under the last name is followed. -/
def follows : Purpose → Bool
  | target | newFile => true
  | name | newDirectory => false

/-- The steps of a walk; a slash at the end says nothing new of a directory that is
to be made. -/
def steps : Purpose → String → List String
  | newDirectory, path => Path.components path
  | _, path => Path.steps path

end Purpose

namespace FileTree

def empty : FileTree := ⟨[], []⟩

/-! ### Nodes -/

def lookup (tree : FileTree) (key : Key) : Option Node :=
  match key with
  | [] => some .directory
  | _ :: _ => tree.nodes.lookup key

/-- Puts `node` at `key`, in place of what is there. -/
def insert (tree : FileTree) (key : Key) (node : Node) : FileTree :=
  { tree with nodes := (key, node) :: tree.nodes.filter fun entry => entry.1 != key }

def erase (tree : FileTree) (key : Key) : FileTree :=
  { tree with nodes := tree.nodes.filter fun entry => entry.1 != key }

/-- The names in the directory at `key`. -/
def children (tree : FileTree) (key : Key) : List String :=
  tree.nodes.filterMap fun entry =>
    match entry.1.getLast? with
    | some name => if entry.1.dropLast == key then some name else none
    | none => none

/-! ### Walking -/

/-- Where a walk begins. -/
def start (tree : FileTree) (path : String) : Key :=
  if Path.isAbsolute path then [] else tree.workingDirectory

/-- The most bytes of a name. -/
def maxNameBytes : Nat := 255

/-- The number of bytes that a path has to stay below. -/
def maxPathBytes : Nat := 4096

/-- Walks from the directory `here`, going on through a link with `enter`. A file
cannot be made under a name with a slash behind it. -/
def walkFrom (tree : FileTree) (purpose : Purpose)
    (enter : Key → List String → Except Errno Place) :
    Key → List String → Except Errno Place
  | here, [] => .ok ⟨here, some .directory⟩
  | here, step :: rest =>
    if step.isEmpty || step == "." then walkFrom tree purpose enter here rest
    else if step == ".." then walkFrom tree purpose enter here.dropLast rest
    else if purpose = .newFile && rest == [""] then .error .isDirectory
    else if step.utf8ByteSize > maxNameBytes then .error .nameTooLong
    else
      let key := here ++ [step]
      match tree.lookup key with
      | none => if rest.isEmpty then .ok ⟨key, none⟩ else .error .noEntry
      | some .directory => walkFrom tree purpose enter key rest
      | some (.file mode content) =>
        if rest.isEmpty then .ok ⟨key, some (.file mode content)⟩ else .error .notDirectory
      | some (.link target) =>
        if rest.isEmpty && !purpose.follows then .ok ⟨key, some (.link target)⟩
        else enter (if Path.isAbsolute target then [] else here) (Path.steps target ++ rest)

/-- Walks through at most `links` links. -/
def walk (tree : FileTree) (purpose : Purpose) : (links : Nat) → Key → List String →
    Except Errno Place
  | 0 => walkFrom tree purpose fun _ _ => .error .tooManyLinks
  | links + 1 => walkFrom tree purpose (walk tree purpose links)

/-- Where `path` leads. -/
def find (tree : FileTree) (path : String) (purpose : Purpose) : Except IoError Place :=
  if path.toList.contains '\x00' then .error .nulInPath
  else if path.isEmpty then .error (.system .noEntry)
  else if path.utf8ByteSize ≥ maxPathBytes then .error (.system .nameTooLong)
  else (walk tree purpose 40 (tree.start path) (purpose.steps path)).mapError .system

/-- The node that `path` leads to, through links. -/
def node (tree : FileTree) (path : String) : Except IoError (Key × Node) := do
  let place ← tree.find path .target
  match place.node with
  | some node => return (place.key, node)
  | none => .error (.system .noEntry)

/-! ### Looking -/

def isPresent (tree : FileTree) (path : String) : Bool :=
  (tree.node path).toOption.isSome

def isDirectory (tree : FileTree) (path : String) : Bool :=
  match tree.node path with
  | .ok (_, .directory) => true
  | _ => false

/-- The size of a file. A directory counts as one page. -/
def size (tree : FileTree) (path : String) : Except IoError Nat := do
  match ← tree.node path with
  | (_, .file _ content) => return content.length
  | _ => return 4096

/-- The contents of a file. -/
def read (tree : FileTree) (path : String) : Except IoError Bytes := do
  match ← tree.node path with
  | (_, .file _ content) => return content
  | _ => .error (.system .isDirectory)

/-- The contents of a file of text; `none` unless there is a file and its bytes
are text. -/
def readText? (tree : FileTree) (path : String) : Option String :=
  match tree.read path with
  | .ok content => String.fromUTF8? content.toByteArray
  | .error _ => none

/-- The target of a symbolic link. -/
def readLink (tree : FileTree) (path : String) : Except IoError String := do
  match (← tree.find path .name).node with
  | some (.link target) => return target
  | some _ => .error (.system .invalid)
  | none => .error (.system .noEntry)

/-- The names in a directory, in no particular order. -/
def list (tree : FileTree) (path : String) : Except IoError (List String) := do
  match ← tree.node path with
  | (key, .directory) => return tree.children key
  | _ => .error (.system .notDirectory)

end FileTree

/-! ### Changing -/

/-- An operation that may change files. What it has changed stays so if it fails. -/
abbrev FileAction := ExceptT IoError (StateM FileTree)

namespace FileAction

/-- What a look at the files finds. -/
def look {α : Type} (find : FileTree → Except IoError α) : FileAction α := do
  ofExcept (find (← get))

/-- Refuses with an error number. -/
def refuse {α : Type} (errno : Errno) : FileAction α :=
  throw (.system errno)

/-- Makes one directory, whose parent exists. -/
def makeDirectory (path : String) : FileAction Unit := do
  let place ← look (·.find path .newDirectory)
  match place.node with
  | some _ => refuse .alreadyExists
  | none => modify (·.insert place.key .directory)

/-- Makes one directory unless it is there already. -/
def ensureDirectory (path : String) : FileAction Unit :=
  tryCatch (makeDirectory path) fun cause => do
    if !(← get).isDirectory path then throw cause

/-- Makes the first of some directories unless it is there, and those of the others
that are missing, each of them above the one before it. -/
def ensureAll : List String → FileAction Unit
  | [] => return
  | path :: parents =>
    tryCatch (makeDirectory path) fun cause => do
      if cause = .system .noEntry then
        ensureAll parents
        ensureDirectory path
      else if !(← get).isDirectory path then throw cause

/-- Makes a directory and its missing parents. -/
def ensurePath (path : String) : FileAction Unit :=
  if path.isEmpty then return else ensureAll (path :: Path.parents path)

/-- Opens a file that is there for writing. -/
def openFile (path : String) : FileAction Key := do
  match ← look (·.node path) with
  | (key, .file _ _) => return key
  | _ => refuse .isDirectory

/-- Opens a file for writing, and makes it with `mode` if it is missing. -/
def createFile (path : String) (mode : Nat) : FileAction Key := do
  let place ← look (·.find path .newFile)
  match place.node with
  | some (.file _ _) => return place.key
  | some _ => refuse .isDirectory
  | none =>
    modify (·.insert place.key (.file mode []))
    return place.key

/-- Makes a symbolic link, in place of what is there. -/
def makeLink (path target : String) : FileAction Unit := do
  let place ← look (·.find path .name)
  modify (·.insert place.key (.link target))

/-- Sets the mode of a file. -/
def setMode (path : String) (mode : Nat) : FileAction Unit := do
  match ← look (·.node path) with
  | (key, .file _ content) => modify (·.insert key (.file mode content))
  | _ => return

/-- Changes the contents of the file at `key`. -/
def update (key : Key) (change : Bytes → Bytes) : FileAction Unit := do
  match (← get).lookup key with
  | some (.file mode content) => modify (·.insert key (.file mode (change content)))
  | _ => refuse .noEntry

/-- Puts `content` into a file, and makes the file with `mode` if it is missing. -/
def writeFile (path : String) (mode : Nat) (content : Bytes) : FileAction Unit := do
  let key ← createFile path mode
  update key fun _ => content

/-- Moves what `source` names, itself and not what it may be a link to, to
`target`, in place of what is there. -/
def rename (source target : String) : FileAction Unit := do
  let source ← look (·.find source .name)
  let target ← look (·.find target .name)
  match source.node, target.node with
  | none, _ => refuse .noEntry
  | some .directory, some .directory =>
    if !((← get).children target.key).isEmpty then refuse .notEmpty
  | some .directory, some _ => refuse .notDirectory
  | some _, some .directory => refuse .isDirectory
  | _, _ => pure ()
  if source.key = target.key then return
  modify fun tree =>
    { tree.erase target.key with
      nodes := (tree.erase target.key).nodes.map fun entry =>
        if source.key.isPrefixOf entry.1 then
          (target.key ++ entry.1.drop source.key.length, entry.2)
        else entry }

/-- Removes a file or a link. -/
def remove (path : String) : FileAction Unit := do
  let place ← look (·.find path .name)
  match place.node with
  | none => refuse .noEntry
  | some .directory => refuse .isDirectory
  | some _ => modify (·.erase place.key)

end FileAction

end NicScope
