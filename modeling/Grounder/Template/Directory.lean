import Grounder.Files.FileStore
import Grounder.Template.Cache

/-!
# `Grounder.Template.Directory`: override files

The override of a template is the file in the override directory that bears the template's name
and ends in `.tpl`.
-/

set_option autoImplicit false

namespace Grounder.Template

/-- The path of the override of a template. -/
def overridePath (dir name : String) : String := Path.join dir (name ++ ".tpl")

variable {m : Type → Type} [Monad m] [FileStore m]

/-- The override of a template, if there is an override directory. -/
def readOverride (dir : Option String) (name : String) : m OverrideFile :=
  match dir with
  | none => return .absent
  | some dir => do
    let path := overridePath dir name
    if ← (FileStore.isFile path : m Bool) then
      match ← (FileStore.readText? path : m (Option String)) with
      | some source => return .text source
      | none => return .unreadable
    else return .absent

/-- The overrides of all built-in templates. -/
def readOverrides (dir : Option String) : m Overrides := do
  let files ← builtins.mapM fun (name, _) => do
    let file ← (readOverride dir name : m OverrideFile)
    return (name, file)
  return fun name => (files.lookup name).getD .absent

end Grounder.Template
