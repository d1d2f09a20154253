import Grounder.Files.FileStore
import Grounder.Task.Decode

/-!
# `Grounder.Task.Load`: tasks from files

A task file is read as a whole. What is wrong with it is told from the outside in: the file first,
then its content.
-/

set_option autoImplicit false

namespace Grounder

/-- Why there is no task. -/
inductive TaskError where
  | malformed
  | unreadableFile (path : String)
  | invalidFile (path : String)
  deriving DecidableEq, Repr

namespace TaskError

/-- What went wrong, outermost first. -/
def reasons : TaskError → List String
  | .malformed => ["failed to deserialize task from JSON"]
  | .unreadableFile path => ["failed to read task from " ++ path]
  | .invalidFile path => ["invalid task file " ++ path, "failed to deserialize task from JSON"]

def message (e : TaskError) : String := ": ".intercalate e.reasons

end TaskError

namespace Task

/-- The task that a text writes, or the error that it writes none. -/
def read (text : String) : Except TaskError Task :=
  match parse? text with
  | some t => .ok t
  | none => .error .malformed

variable {m : Type → Type} [Monad m] [FileStore m]

/-- The task in a file. -/
def load (path : String) : m (Except TaskError Task) := do
  match ← (FileStore.readText? path : m (Option String)) with
  | none => return .error (.unreadableFile path)
  | some text =>
    match read text with
    | .ok t => return .ok t
    | .error _ => return .error (.invalidFile path)

end Task

end Grounder
