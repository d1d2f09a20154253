import Grounder.Template.Builtin

/-!
# `Grounder.Template.Cache`: finding templates by name

A file of the override directory goes before the built-in template of the same name. A template
that was found is kept under its name; one that was not is looked for again the next time, since
the file may have changed by then.
-/

set_option autoImplicit false

namespace Grounder

/-- What the override directory holds for a template. -/
inductive OverrideFile where
  | absent
  | unreadable
  | text (source : String)
  deriving DecidableEq, Repr

/-- What the override directory holds for each name. -/
abbrev Overrides := String → OverrideFile

/-- No override directory. -/
def Overrides.none : Overrides := fun _ => .absent

/-- The templates found so far, and how many files were read for them. -/
structure TemplateCache where
  entries : List (String × Template)
  diskReads : Nat
  deriving DecidableEq, Repr

namespace TemplateCache

def empty : TemplateCache := ⟨[], 0⟩

/-- The built-in template of that name. -/
def loadBuiltin (name : String) : Except CompileError Template :=
  match Template.builtin? name with
  | some source => Template.parse name source
  | none => .error (.unknownTemplate name)

/-- The template of that name as the files now have it. -/
def load (overrides : Overrides) (name : String) : Except CompileError Template :=
  match overrides name with
  | .text source => Template.parse name source
  | .unreadable => .error (.unreadableTemplate name)
  | .absent => loadBuiltin name

/-- How many files are read to load a template. One that cannot be read does not count. -/
def readsToLoad (overrides : Overrides) (name : String) : Nat :=
  match overrides name with
  | .text _ => 1
  | _ => 0

/-- The template that was found under a name. -/
def find? (cache : TemplateCache) (name : String) : Option Template := cache.entries.lookup name

/-- The template of that name, and the cache after the request. -/
def get (cache : TemplateCache) (overrides : Overrides) (name : String) :
    Except CompileError Template × TemplateCache :=
  match cache.find? name with
  | some t => (.ok t, cache)
  | none =>
    let diskReads := cache.diskReads + readsToLoad overrides name
    match load overrides name with
    | .ok t => (.ok t, ⟨(name, t) :: cache.entries, diskReads⟩)
    | .error e => (.error e, { cache with diskReads })

end TemplateCache

end Grounder
