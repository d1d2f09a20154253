import Grounder.Files.Path

/-!
# `Grounder.Files.FileTree`: directories and files

A tree maps locations to directories and files, and has a current directory, which relative paths
start from. Every step of a path is looked up in a directory that has to be there. The operations
answer `none` where they fail, and leave the tree as it was.

There is nothing but directories and regular files. Links are left out, and so are permissions and
the room on a disk: an operation fails for its path, or for what is there, and for nothing else.
-/

set_option autoImplicit false

namespace Grounder

/-- The names that lead from the root to a place. -/
abbrev Location := List String

/-- What a file holds: a text, or bytes that are not the UTF-8 of any text. -/
inductive FileContent where
  | text (s : String)
  | bytes (b : List UInt8)
  deriving DecidableEq, Repr

inductive FileEntry where
  | directory
  | file (content : FileContent)
  deriving DecidableEq, Repr

/-- Directories and files by location. The root is not listed. -/
structure FileTree where
  current : Location
  entries : List (Location × FileEntry)
  deriving DecidableEq, Repr

namespace FileTree

/-- What is at a location. -/
def entryAt? (tree : FileTree) (place : Location) : Option FileEntry :=
  if place = [] then some .directory else tree.entries.lookup place

def isDirectoryAt (tree : FileTree) (place : Location) : Bool :=
  tree.entryAt? place = some .directory

/-- The tree with something else at a location. -/
def set (tree : FileTree) (place : Location) (entry : FileEntry) : FileTree :=
  { tree with entries := (place, entry) :: tree.entries.filter (·.1 ≠ place) }

/-- The tree with nothing at a location. -/
def erase (tree : FileTree) (place : Location) : FileTree :=
  { tree with entries := tree.entries.filter (·.1 ≠ place) }

/-! ### Following paths -/

/-- The longest name that a directory can hold, in bytes. -/
def maxNameBytes : Nat := 255

/-- The longest path that can be followed, in bytes. -/
def maxPathBytes : Nat := 4095

/-- Whether a text can be followed as a path at all. -/
def isUsable (path : String) : Bool :=
  path ≠ "" && path.utf8ByteSize ≤ maxPathBytes && !path.toList.contains '\x00'

/-- The location one piece further, which is looked up in a directory. -/
def step? (tree : FileTree) (place : Location) (piece : String) : Option Location :=
  if !tree.isDirectoryAt place then none
  else if Path.isSkipped piece then some place
  else if piece = ".." then some place.dropLast
  else if piece.utf8ByteSize ≤ maxNameBytes then some (place ++ [piece])
  else none

/-- Where a path starts. -/
def start (tree : FileTree) (path : String) : Location :=
  if Path.isAbsolute path then [] else tree.current

/-- Where a path leads. Everything before its last step is there, and the last step may lead to
nothing. -/
def locate? (tree : FileTree) (path : String) : Option Location :=
  if isUsable path then (Path.pieces path.toList).foldlM (step? tree) (tree.start path) else none

/-- What a path leads to. -/
def find? (tree : FileTree) (path : String) : Option FileEntry :=
  (tree.locate? path).bind tree.entryAt?

/-! ### Questions -/

/-- Whether a path leads to something. -/
def isPresent (tree : FileTree) (path : String) : Bool := (tree.find? path).isSome

def isDirectory (tree : FileTree) (path : String) : Bool := tree.find? path = some .directory

def isFile (tree : FileTree) (path : String) : Bool :=
  match tree.find? path with
  | some (.file _) => true
  | _ => false

/-- The text that a file holds. -/
def readText? (tree : FileTree) (path : String) : Option String :=
  match tree.find? path with
  | some (.file (.text s)) => some s
  | _ => none

/-! ### Changes -/

/-- A new file, or new content for a file that is there. -/
def write? (tree : FileTree) (path : String) (content : FileContent) : Option FileTree :=
  match tree.locate? path with
  | none => none
  | some place =>
    if tree.isDirectoryAt place then none else some (tree.set place (.file content))

/-- The tree without a file. -/
def removeFile? (tree : FileTree) (path : String) : Option FileTree :=
  match tree.locate? path with
  | none => none
  | some place =>
    match tree.entryAt? place with
    | some (.file _) => some (tree.erase place)
    | _ => none

/-- The tree with a new directory. Slashes may follow its name. -/
def createDirectory? (tree : FileTree) (path : String) : Option FileTree :=
  let steps := (Path.pieces path.toList).reverse.dropWhile (· = "")
  match steps with
  | [] => none
  | name :: above =>
    if !isUsable path || Path.isSkipped name || name = ".." then none
    else
      match (above.reverse ++ [name]).foldlM (step? tree) (tree.start path) with
      | none => none
      | some place =>
        if (tree.entryAt? place).isSome then none else some (tree.set place .directory)

/-- The tree in which a path leads to a directory. -/
def ensureDirectory? (tree : FileTree) (path : String) : Option FileTree :=
  if tree.isDirectory path then some tree else tree.createDirectory? path

/-- The tree in which the paths lead to directories, made one after another until one cannot be
made, and whether all of them were. -/
def ensureAll (tree : FileTree) : List String → Bool × FileTree
  | [] => (true, tree)
  | path :: rest =>
    match tree.ensureDirectory? path with
    | none => (false, tree)
    | some tree' => tree'.ensureAll rest

/-- The tree in which a path and all above it lead to directories, or as many of them as could be
made. The empty path asks for nothing. -/
def createDirectories (tree : FileTree) (path : String) : Bool × FileTree :=
  if path = "" then (true, tree)
  else if !isUsable path then (false, tree)
  else tree.ensureAll ((Path.ancestors path).reverse ++ [path])

/-- The tree without whatever a path leads to, and all below. -/
def removeAll (tree : FileTree) (path : String) : FileTree :=
  match tree.locate? path with
  | none => tree
  | some place => { tree with entries := tree.entries.filter fun e => !place.isPrefixOf e.1 }

end FileTree

end Grounder
