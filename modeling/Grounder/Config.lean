import Grounder.Files.FileStore
import Grounder.Toml.Reader
import Grounder.VariableNumbering

/-!
# `Grounder.Config`: settings of a project

A setting has a default, which the project's configuration file overrides, which an environment
setting overrides. Relative directories are anchored at the project, whichever of the three they
came from.
-/

set_option autoImplicit false

namespace Grounder

/-- The settings. -/
structure Config where
  symbolOrder : SymbolOrder
  /-- Whether external constraints that read no fluent symbol are decided before the search. -/
  resolveStatics : Bool
  /-- The directory with templates that go before the built-in ones. -/
  templateDir : Option String
  /-- Whether units are rendered side by side. It makes no difference to what is rendered. -/
  parallel : Bool
  outputDir : String
  deriving DecidableEq, Repr

namespace Config

def default : Config := ⟨.declaration, false, none, true, "generated"⟩

/-! ### The file -/

/-- The names of the sections of the file. -/
def sections : List String := ["grounding", "generation", "output"]

/-- The value of each setting that a section of the file gives. A section is a table, or an array
of the values in the order of `names`. All numbers of a table must be readable. Values of an array
that are left over are not looked at. -/
def section? (root : Toml.Entries) (name : String) (names : List String) :
    Option Toml.Entries :=
  match root.lookup name with
  | none => some []
  | some (.table _ entries) => if Toml.entriesAreReadable entries then some entries else none
  | some (.array _ items) => some (names.zip items)
  | some (.date _) => some []
  | some _ => none

/-- The setting of that name, or `default` where the section does not give it. -/
def setting? {α : Type} (entries : Toml.Entries) (name : String) (default : α)
    (read : Toml.Value → Option α) : Option α :=
  match entries.lookup name with
  | some v => read v
  | none => some default

def readBool : Toml.Value → Option Bool
  | .bool b => some b
  | _ => none

def readString : Toml.Value → Option String
  | .string s => some s
  | _ => none

/-- The order of a name, alone or as the only key of a table that gives it nothing. -/
def readOrder : Toml.Value → Option SymbolOrder
  | .string s => SymbolOrder.ofName? s
  | .table _ [(name, .table _ [])] => SymbolOrder.ofName? name
  | .table _ [(name, .array _ [])] => SymbolOrder.ofName? name
  | _ => none

/-- The settings of a configuration file, which may hold more than sections. -/
def ofToml? (root : Toml.Entries) : Option Config := do
  guard (Toml.entriesAreReadable (root.filter fun e => e.1 ∉ sections))
  let grounding ← section? root "grounding" ["symbol_order", "resolve_static_externals"]
  let symbolOrder ← setting? grounding "symbol_order" default.symbolOrder readOrder
  let resolveStatics ←
    setting? grounding "resolve_static_externals" default.resolveStatics readBool
  let generation ← section? root "generation" ["template_dir", "parallel"]
  let templateDir ←
    setting? generation "template_dir" default.templateDir fun v => (readString v).map some
  let parallel ← setting? generation "parallel" default.parallel readBool
  let output ← section? root "output" ["dir"]
  let outputDir ← setting? output "dir" default.outputDir readString
  return ⟨symbolOrder, resolveStatics, templateDir, parallel, outputDir⟩

/-- The settings that the text of a configuration file gives. -/
def parse? (text : String) : Option Config := (Toml.Reader.read text).bind ofToml?

/-! ### The environment -/

/-- The settings of the environment by name. -/
abbrev Environment := String → Option String

/-- What a truth value in the environment says. -/
def parseBool? (s : String) : Option Bool :=
  if s = "true" then some true else if s = "false" then some false else none

/-- What the environment gives a setting, or `old` if it gives it nothing that can be read. -/
def override {α : Type} (env : Environment) (name : String) (read : String → Option α) (old : α) :
    α :=
  ((env name).bind read).getD old

/-- The settings with those of the environment in front. -/
def withEnvironment (c : Config) (env : Environment) : Config :=
  { symbolOrder :=
      override env "GROUNDWORK_SYMBOL_ORDER" (fun s => (SymbolOrder.parse s).toOption) c.symbolOrder
    resolveStatics :=
      override env "GROUNDWORK_RESOLVE_STATIC_EXTERNALS" parseBool? c.resolveStatics
    parallel := override env "GROUNDWORK_PARALLEL" parseBool? c.parallel
    outputDir := override env "GROUNDWORK_OUTPUT_DIR" some c.outputDir
    templateDir :=
      override env "GROUNDWORK_TEMPLATE_DIR" (fun s => if s = "" then none else some (some s))
        c.templateDir }

/-! ### Loading -/

/-- The settings with their directories anchored at the project. -/
def anchored (c : Config) (project : String) : Config :=
  { c with
    outputDir := Path.join project c.outputDir
    templateDir := c.templateDir.map (Path.join project) }

/-- What is wrong with a configuration file. -/
inductive ReadError where
  | unreadable (path : String)
  | invalid (path : String)
  deriving DecidableEq, Repr

def ReadError.message : ReadError → String
  | .unreadable path => "failed to read " ++ path
  | .invalid path => "invalid config file " ++ path

/-- The directory of a project that holds its configuration. -/
def directory (project : String) : String := Path.join project ".groundwork"

/-- The configuration file of a project. -/
def file (project : String) : String := Path.join (directory project) "config.toml"

variable {m : Type → Type} [Monad m] [FileStore m]

/-- The settings that the configuration file gives, or the defaults if there is none. -/
def readFile (project : String) : m (Except ReadError Config) := do
  let path := file project
  if ← (FileStore.isPresent path : m Bool) then
    match ← (FileStore.readText? path : m (Option String)) with
    | none => return .error (.unreadable path)
    | some text =>
      match parse? text with
      | some c => return .ok c
      | none => return .error (.invalid path)
  else return .ok default

/-- The settings of a project. -/
def load (project : String) (env : Environment) : m (Except ReadError Config) := do
  let found ← readFile project
  return found.map fun c => (c.withEnvironment env).anchored project

end Config

end Grounder
