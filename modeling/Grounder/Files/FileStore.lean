import Grounder.Files.FileTree

/-!
# `Grounder.Files.FileStore`: where files are kept

What the program does with files is written against this interface. A `FileTree` that is passed
along is one store; the disk is another.
-/

set_option autoImplicit false

namespace Grounder

/-- Files that can be read and changed. The changes tell whether they succeeded. -/
class FileStore (m : Type → Type) where
  isPresent : String → m Bool
  isFile : String → m Bool
  readText? : String → m (Option String)
  writeText : String → String → m Bool
  removeFile : String → m Bool
  createDirectories : String → m Bool
  /-- The path of the current directory. -/
  currentDirectory : m String
  /-- The time, as a date and a time of day. -/
  timestamp : m String

namespace FileTree

/-- A change that may fail as a step on a tree. -/
def attempt (change : FileTree → Option FileTree) : StateM FileTree Bool := fun tree =>
  match change tree with
  | some tree' => (true, tree')
  | none => (false, tree)

/-- The text of a location as an absolute path. -/
def absolutePath (place : Location) : String := "/" ++ "/".intercalate place

/-- A tree as a store, at a certain time. -/
abbrev storeAt (time : String) : FileStore (StateM FileTree) where
  isPresent path := do return (← get).isPresent path
  isFile path := do return (← get).isFile path
  readText? path := do return (← get).readText? path
  writeText path s := attempt (·.write? path (.text s))
  removeFile path := attempt (·.removeFile? path)
  createDirectories path := fun tree => tree.createDirectories path
  currentDirectory := do return absolutePath (← get).current
  timestamp := return time

/-- A tree as a store in which time stands still. -/
instance : FileStore (StateM FileTree) := storeAt "1970-01-01T00:00:00+00:00"

end FileTree

end Grounder
