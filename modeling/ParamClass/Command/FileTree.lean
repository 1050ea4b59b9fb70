import ParamClass.File

/-!
# Trees of files

A tree of files and directories with a working directory, and what reading and writing at a path
does to it. A path is followed part by part, from the root if it starts with a slash and else from
the working directory.
-/

namespace ParamClass

/-- An entry of a file system. -/
inductive Entry where
  /-- A file. -/
  | file (content : ByteArray)
  /-- A directory. -/
  | folder

/-- A tree of files and directories. -/
structure FileTree where
  /-- The entries, each with the names on the way from the root to it. -/
  entries : List (List String × Entry)
  /-- The names on the way from the root to the working directory. -/
  workingPlace : List String

/-- A place in a tree: the names on the way from the root to it. -/
abbrev FileTree.Place := List String

/-! ## Paths -/

/-- What a path leads to. -/
inductive Spot where
  /-- A directory. -/
  | folder (place : FileTree.Place)
  /-- A file of this content. -/
  | file (place : FileTree.Place) (content : ByteArray)
  /-- A place in a directory where nothing is. -/
  | vacant (place : FileTree.Place)

/-- The parts of a path between its slashes. -/
structure Path where
  /-- It starts with a slash, so at the root. -/
  isAbsolute : Bool
  /-- The parts that are not empty. -/
  parts : List String
  /-- It ends with a slash, so it should lead to a directory. -/
  endsInSlash : Bool
  deriving DecidableEq, Repr

namespace Path

/-- The greatest number of bytes in a path. -/
def maxSize : Nat := 4095

/-- The greatest number of bytes in a part of a path. -/
def maxPartSize : Nat := 255

/-- The parts of a path that is neither empty nor too long. -/
def of? (path : String) : Except FileFault Path :=
  if path = "" then .error .notFound
  else if maxSize < path.utf8ByteSize then .error .nameTooLong
  else
    .ok ⟨path.toList.head? == some '/',
      ((path.toList.splitOn '/').map String.ofList).filter (· != ""),
      path.toList.getLast? == some '/'⟩

/-- The steps to what is read at a path. The slash at the end is one more step, which only a
directory allows. -/
def readSteps (path : Path) : List String :=
  if path.endsInSlash then path.parts ++ ["."] else path.parts

/-- The steps to what is written at a path. With a slash at the end they lead to the directory that
should hold it, whatever the last part is: a directory cannot be written. -/
def writeSteps (path : Path) : List String :=
  if path.endsInSlash then path.parts.dropLast ++ ["."] else path.parts

end Path

namespace FileTree

/-- The entry at a place. The working directory and those around it are directories. -/
def at? (tree : FileTree) (place : Place) : Option Entry :=
  if place.isPrefixOf tree.workingPlace then some .folder else tree.entries.lookup place

/-- What is at a place. -/
def spot (tree : FileTree) (place : Place) : Spot :=
  match tree.at? place with
  | none => .vacant place
  | some .folder => .folder place
  | some (.file content) => .file place content

/-- Where a path starts. -/
def start (tree : FileTree) (path : Path) : Spot :=
  .folder (if path.isAbsolute then [] else tree.workingPlace)

/-- One step of a path: a dot stays, two dots go to the directory around, and all else is a name. The
root is the directory around itself. -/
def step (tree : FileTree) (part : String) : Spot → Except FileFault Spot
  | .vacant _ => .error .notFound
  | .file _ _ => .error .notDirectory
  | .folder place =>
    if part = "." then .ok (.folder place)
    else if part = ".." then .ok (.folder place.dropLast)
    else if Path.maxPartSize < part.utf8ByteSize then .error .nameTooLong
    else .ok (tree.spot (place ++ [part]))

/-- Some steps of a path, one after the other. -/
def walk (tree : FileTree) (spot : Spot) : List String → Except FileFault Spot
  | [] => .ok spot
  | part :: parts =>
    match tree.step part spot with
    | .error fault => .error fault
    | .ok next => tree.walk next parts

/-- Reads the file at a path. -/
def read (tree : FileTree) (path : String) : FileContent :=
  match Path.of? path with
  | .error fault => .error fault
  | .ok p =>
    match tree.walk (tree.start p) p.readSteps with
    | .error fault => .error fault
    | .ok (.file _ content) => .ok content
    | .ok (.vacant _) => .error .notFound
    | .ok (.folder _) => .error .isDirectory

/-- The tree with a file of this content at a place. -/
def put (tree : FileTree) (place : Place) (content : ByteArray) : FileTree where
  entries :=
    if (tree.entries.lookup place).isSome then
      tree.entries.map fun e => if e.1 == place then (place, .file content) else e
    else tree.entries ++ [(place, .file content)]
  workingPlace := tree.workingPlace

/-- Writes the file at a path, in the place of the file that is there. -/
def write (tree : FileTree) (path : String) (content : ByteArray) : Except FileFault FileTree :=
  match Path.of? path with
  | .error fault => .error fault
  | .ok p =>
    match tree.walk (tree.start p) p.writeSteps with
    | .error fault => .error fault
    | .ok (.file place _) => .ok (tree.put place content)
    | .ok (.vacant place) => .ok (tree.put place content)
    | .ok (.folder _) => .error .isDirectory

/-- Trees as the states of a file system. -/
def fileSystem : FileSystem FileTree where
  read := read
  write tree path content :=
    match tree.write path content with
    | .error fault => (.error fault, tree)
    | .ok after => (.ok (), after)

end FileTree

end ParamClass
