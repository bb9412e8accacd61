import CallContract.Keyed
import CallContract.Json.Pointer

/-!
# Files

What commands do to files, and files that are held in memory.

* `Files m` are the operations on files in a monad; a path is a text whose names stand between
  slashes.
* `FileTree` is a file or a directory. `FileSystem` is a tree with a working directory in it, and
  `FileSystem.files` are the operations on it, in the state monad.
* `parentPath?` is the path of the directory of a path.
-/

namespace CallContract

/-- Why an operation on a file fails. -/
inductive FileFault where
  | notFound
  | alreadyThere
  | notDirectory
  | isDirectory
  | nameTooLong
  | nulInPath
  | other (text : String)
  deriving DecidableEq

/-- The text of a fault. -/
def FileFault.message : FileFault → String
  | .notFound => "No such file or directory (os error 2)"
  | .alreadyThere => "File exists (os error 17)"
  | .notDirectory => "Not a directory (os error 20)"
  | .isDirectory => "Is a directory (os error 21)"
  | .nameTooLong => "File name too long (os error 36)"
  | .nulInPath => "file name contained an unexpected NUL byte"
  | .other text => text

/-- What stands at a path. -/
inductive FileKind where
  | file
  | directory
  deriving DecidableEq

/-- The operations on files. -/
structure Files (m : Type → Type) where
  /-- The contents of a file. -/
  read : String → m (Except FileFault String)
  /-- Writes a file, whether it is there or not. -/
  write : String → String → m (Except FileFault Unit)
  /-- Makes a directory and those above it, unless they are there. -/
  makeDirectories : String → m (Except FileFault Unit)
  /-- What stands at a path, if anything. -/
  kind? : String → m (Option FileKind)
  /-- The names in a directory. -/
  names : String → m (List String)

/-! ## Paths -/

/-- The names and blanks between the slashes of a path. -/
def pathParts (path : String) : List String :=
  (Pointer.splitSlash path.toList).map String.ofList

/-- The path of some parts. -/
def joinParts (parts : List String) : String :=
  "/".intercalate parts

/-- Drops the parts at the end of a path that name nothing, but for the first. -/
def trimParts : List String → List String
  | [] => []
  | first :: rest => first :: (rest.reverse.dropWhile fun part => part = "" || part = ".").reverse

/-- The path of the directory that the last name of a path stands in: the empty text for the working
directory, and nothing for the root. -/
def parentPath? (path : String) : Option String :=
  match trimParts (pathParts path) with
  | [] => none
  | [part] => if part = "" then none else some ""
  | parts =>
    match trimParts parts.dropLast with
    | [""] => some "/"
    | parts => some (joinParts parts)

/-! ## Trees -/

/-- A file, or a directory with what it holds by name. -/
inductive FileTree where
  | file (contents : String)
  | directory (entries : List (String × FileTree))

namespace FileTree

instance : Inhabited FileTree := ⟨.directory []⟩

/-- What a tree is. -/
def kind : FileTree → FileKind
  | .file _ => .file
  | .directory _ => .directory

/-- What stands at the place of some names in a tree. -/
def lookup : FileTree → List String → Option FileTree
  | tree, [] => some tree
  | .directory entries, name :: rest =>
    match Keyed.get? name entries with
    | some child => child.lookup rest
    | none => none
  | .file _, _ :: _ => none

/-- The tree with another tree in the place of some names. Where a directory on the way is missing
nothing is put. -/
def insert (new : FileTree) : FileTree → List String → FileTree
  | _, [] => new
  | .directory entries, [name] => .directory (Keyed.put name new entries)
  | .directory entries, name :: rest =>
    match Keyed.get? name entries with
    | some child => .directory (Keyed.put name (insert new child rest) entries)
    | none => .directory entries
  | .file contents, _ :: _ => .file contents

/-- The most bytes that a name may have. -/
def longestName : Nat := 255

/-- What one part of a path leads to from the place of some names. The directory above the root is
the root itself. -/
def step (root : FileTree) (here : List String) (part : String) :
    Except FileFault (List String) :=
  match root.lookup here with
  | some (.directory entries) =>
    if part = "" ∨ part = "." then .ok here
    else if part = ".." then .ok here.dropLast
    else if longestName < part.utf8ByteSize then .error .nameTooLong
    else if Keyed.contains part entries then .ok (here ++ [part])
    else .error .notFound
  | some (.file _) => .error .notDirectory
  | none => .error .notFound

/-- Makes the directories that some parts lead to from the place of some names: the tree with those
that could be made, and what kept the next from being made. -/
def makeFrom (root : FileTree) (here : List String) : List String → FileTree × Except FileFault Unit
  | [] => (root, .ok ())
  | part :: rest =>
    match root.step here part with
    | .ok place =>
      match root.lookup place with
      | some (.directory _) => root.makeFrom place rest
      | _ => (root, .error (if rest.isEmpty then .alreadyThere else .notDirectory))
    | .error .notFound => (insert (.directory []) root (here ++ [part])).makeFrom (here ++ [part]) rest
    | .error fault => (root, .error fault)

/-- The files below a tree with their paths, in the order of the entries. -/
def contents : FileTree → List (String × String)
  | .file text => [("", text)]
  | .directory entries => ofEntries entries
where
  /-- The files below some entries. -/
  ofEntries : List (String × FileTree) → List (String × String)
    | [] => []
    | (name, tree) :: rest =>
      ((contents tree).map fun (path, text) =>
        (if path = "" then name else name ++ "/" ++ path, text)) ++ ofEntries rest

end FileTree

/-! ## File systems -/

/-- A tree, and the place of the directory in it that relative paths start from. -/
structure FileSystem where
  root : FileTree
  here : List String

namespace FileSystem

/-- A tree as the working directory, with nothing beside it. -/
def around (tree : FileTree) : FileSystem :=
  { root := .directory [("work", tree)], here := ["work"] }

/-- The working directory. -/
def workingDirectory (sys : FileSystem) : FileTree :=
  (sys.root.lookup sys.here).getD default

/-- The most bytes that a path may have. -/
def longestPath : Nat := 4095

/-- The place that a path starts from, and its parts. -/
def start (sys : FileSystem) (path : String) : Except FileFault (List String × List String) :=
  if path.toList.contains '\x00' then .error .nulInPath
  else if longestPath < path.utf8ByteSize then .error .nameTooLong
  else
    match pathParts path with
    | [""] => .error .notFound
    | "" :: parts => .ok ([], parts)
    | parts => .ok (sys.here, parts)

/-- The tree that some parts lead to from the place of some names. -/
def follow (sys : FileSystem) (here : List String) (parts : List String) :
    Except FileFault (List String × FileTree) := do
  let place ← parts.foldlM sys.root.step here
  match sys.root.lookup place with
  | some tree => return (place, tree)
  | none => throw .notFound

/-- The tree at a path. -/
def at? (sys : FileSystem) (path : String) : Except FileFault FileTree := do
  let (here, parts) ← sys.start path
  return (← sys.follow here parts).2

/-- The contents of the file at a path. -/
def read (sys : FileSystem) (path : String) : Except FileFault String := do
  match ← sys.at? path with
  | .file contents => return contents
  | .directory _ => throw .isDirectory

/-- Writes a file. The directory it stands in has to be there. A path that ends in a slash can only
be that of a directory. -/
def write (sys : FileSystem) (path contents : String) : Except FileFault FileSystem := do
  let (here, parts) ← sys.start path
  let names := (parts.reverse.dropWhile fun part => part = "").reverse
  let last := names.getLast?.getD ""
  match ← sys.follow here names.dropLast with
  | (_, .file _) => throw .notDirectory
  | (place, .directory entries) =>
    if parts.getLast? = some "" ∨ last = "." ∨ last = ".." then throw .isDirectory
    else if FileTree.longestName < last.utf8ByteSize then throw .nameTooLong
    else
      match Keyed.get? last entries with
      | some (.directory _) => throw .isDirectory
      | _ => return { sys with root := FileTree.insert (.file contents) sys.root (place ++ [last]) }

/-- Makes the directories of a path: the file system with those that could be made, and what kept the
next from being made. -/
def makeDirectories (sys : FileSystem) (path : String) : FileSystem × Except FileFault Unit :=
  match sys.start path with
  | .ok (here, parts) =>
    let (root, result) := sys.root.makeFrom here parts
    ({ sys with root := root }, result)
  | .error fault => (sys, .error fault)

/-- The names in the directory at a path. -/
def names (sys : FileSystem) (path : String) : List String :=
  match sys.at? path with
  | .ok (.directory entries) => entries.map Prod.fst
  | _ => []

/-- The operations on a file system in memory. -/
def files : Files (StateM FileSystem) where
  read path := return (← get).read path
  write path contents := do
    match (← get).write path contents with
    | .ok sys =>
      set sys
      return .ok ()
    | .error fault => return .error fault
  makeDirectories path := do
    let (sys, result) := (← get).makeDirectories path
    set sys
    return result
  kind? path := return ((← get).at? path).toOption.map FileTree.kind
  names path := return (← get).names path

end FileSystem

end CallContract
