import Grounder.CommandLine.Help
import Grounder.Compile
import Grounder.Config
import Grounder.Output.Write
import Grounder.Task.Load
import Grounder.Template.Directory

/-!
# `Grounder.CommandLine.Run`: carrying out a command

A command ends with a code, and with what it prints on the two channels. It is carried out on any
store of files.
-/

set_option autoImplicit false

namespace Grounder.CommandLine

open Json (Value)

/-- How a command ended. -/
structure Outcome where
  code : Nat
  output : String
  messages : String
  deriving DecidableEq, Repr

/-- A failure of a command. -/
inductive Failure where
  /-- The command tells the reasons for it, outermost first. -/
  | reported (reasons : List String)
  /-- The command breaks off, since a number is no word. -/
  | overflow
  deriving DecidableEq, Repr

namespace Failure

/-- The code that the command ends with. -/
def code : Failure → Nat
  | .reported _ => 1
  | .overflow => 101

/-- The failure as it is shown. For a command that breaks off this is the message only, and not the
place in the program. -/
def text : Failure → String
  | .reported reasons =>
    let causes := match reasons.drop 1 with
      | [] => []
      | [cause] => ["", "Caused by:", "    " ++ cause]
      | causes => "" :: "Caused by:" ::
          causes.zipIdx.map fun (cause, i) => "    " ++ toString i ++ ": " ++ cause
    Text.unlines (("Error: " ++ reasons.headD "") :: causes)
  | .overflow => GroundingError.strideOverflow.message ++ "\n"

/-- The failure of a task that cannot be grounded. -/
def ofGrounding (context : String) : GroundingError → Failure
  | .strideOverflow => .overflow
  | e => .reported [context, e.message]

/-- The failure of a task that cannot be compiled. -/
def ofCompiling (context : String) : CompileError → Failure
  | .ground e => ofGrounding context e
  | e => .reported [context, e.message]

end Failure

/-! ### Reports -/

/-- The lines that tell what was compiled. -/
def compileReport (s : CompilationSummary) (dir : String) : String :=
  Text.unlines
    ["Compiled " ++ s.domain ++ "/" ++ s.instanceName,
      "  symbols: " ++ toString s.symbols ++ " (" ++ toString s.fluents ++ " fluent, " ++
        toString s.statics ++ " static)",
      "  objects: " ++ toString s.objects,
      "  state variables: " ++ toString s.stateVariables,
      "  initial atoms: " ++ toString s.initialAtoms,
      "  constraints: " ++ toString s.constraints ++ " (" ++ toString s.staticConstraints ++
        " resolved statically)",
      "  wrote " ++ toString s.artifacts ++ " artifacts to " ++ dir]

/-- The line of a fluent symbol. -/
def fluentLine (m : GroundModel) (symbol : String) : String :=
  let size := ((m.numbering.block? symbol).map (·.size)).getD 0
  "  " ++ symbol ++ " (" ++ toString size ++ " variables)"

/-- The lines that tell what a task grounds to. -/
def checkReport (m : GroundModel) (plan : ConstraintPlan) : String :=
  Text.unlines
    (["Task: " ++ m.domain ++ "/" ++ m.instanceName, "", "Fluent symbols:"] ++
      m.classification.fluents.map (fluentLine m) ++ ["Static symbols:"] ++
      m.classification.statics.map ("  " ++ ·) ++
      ["", "Objects: " ++ toString m.objects.size,
        "State variables: " ++ toString m.numbering.size,
        "Initial atoms: " ++ toString m.init.atomCount,
        "Constraints: " ++ toString plan.uses.length ++ " (" ++
          toString plan.statics.length ++ " static)"])

/-- The same as JSON, its members in the order of their names. -/
def checkJson (m : GroundModel) (plan : ConstraintPlan) : Value :=
  let count (n : Nat) : Value := .number (.integer n)
  .object
    [("constraints", count plan.uses.length), ("domain", .string m.domain),
      ("fluent", .ofStrings m.classification.fluents),
      ("initial_atoms", count m.init.atomCount), ("instance", .string m.instanceName),
      ("objects", count m.objects.size), ("static", .ofStrings m.classification.statics),
      ("variables", count m.numbering.size)]

/-- The handle and the text of every state variable. -/
def variableReport (numbering : VariableNumbering) : String :=
  Text.unlines (numbering.vars.zipIdx.map fun (v, handle) => toString handle ++ " " ++ v.text)

/-- The line of a built-in template. -/
def templateLine (name source : String) : String :=
  let slots := match Template.parse name source with
    | .ok t => t.slots
    | .error _ => []
  padded 24 name ++ " " ++ ", ".intercalate slots

/-- The built-in templates and their slots. -/
def templateReport : String :=
  Text.unlines (Template.builtins.map fun (name, source) => templateLine name source)

/-! ### Commands -/

variable {m : Type → Type} [Monad m] [FileStore m]

/-- A step that may end the command. -/
abbrev Step (m : Type → Type) := ExceptT Failure m

def failWith {α : Type} (f : Failure) : Step m α := throw f

/-- The result of something that may fail, with the failure that ends the command. -/
def orFail {ε α : Type} (result : Except ε α) (failure : ε → Failure) : Step m α :=
  match result with
  | .ok a => return a
  | .error e => failWith (failure e)

/-- The settings of a project, with the order of symbols that an option asks for. -/
def loadConfig (env : Config.Environment) (project : String) (order : Option String) :
    Step m Config := do
  let found ← (Config.load project env : m (Except Config.ReadError Config))
  let c ← orFail found fun e =>
    .reported ["failed to load config from " ++ Config.directory project, e.message]
  match order with
  | none => return c
  | some name =>
    let symbolOrder ← orFail (SymbolOrder.parse name) fun e =>
      .reported ["--symbol-order: " ++ e]
    return { c with symbolOrder }

def loadTask (path : String) : Step m Task := do
  let found ← (Task.load path : m (Except TaskError Task))
  orFail found fun e => .reported e.reasons

def groundTask (path : String) (t : Task) (c : Config) : Step m GroundModel :=
  orFail (GroundModel.build t c.symbolOrder) (.ofGrounding ("failed to ground " ++ path))

/-- Compiles a task and writes what is made of it. -/
def runCompile (c : Config) (path : String) (out : Option String) : Step m Outcome := do
  let t ← loadTask path
  let overrides ← (Template.readOverrides c.templateDir : m Overrides)
  let made ← orFail (compile t ⟨c.symbolOrder, c.resolveStatics⟩ overrides .empty).1
    (.ofCompiling ("failed to compile " ++ path))
  let dir := out.getD c.outputDir
  let written ← (made.artifacts.write dir : ExceptT WriteError m Manifest).run
  let _ ← orFail written fun e => .reported [e.message]
  return ⟨0, "", compileReport made.summary dir⟩

/-- Grounds a task and tells what it grounds to. -/
def runCheck (c : Config) (path : String) (json : Bool) : Step m Outcome := do
  let t ← loadTask path
  let model ← groundTask path t c
  let plan ← orFail (ConstraintPlan.ofTask t model.classification c.resolveStatics)
    (.ofGrounding ("invalid constraints in " ++ path))
  return ⟨0, if json then (checkJson model plan).spread ++ "\n" else checkReport model plan, ""⟩

/-- Grounds a task and lists its state variables. -/
def runVariables (c : Config) (path : String) : Step m Outcome := do
  let t ← loadTask path
  let model ← groundTask path t c
  return ⟨0, variableReport model.numbering, ""⟩

/-- Lists the built-in templates, or shows one. -/
def runTemplates (shown : Option String) : Step m Outcome :=
  match shown with
  | none => return ⟨0, templateReport, ""⟩
  | some name =>
    match Template.builtin? name with
    | some source => return ⟨0, source, ""⟩
    | none => failWith (.reported ["no built-in template named '" ++ name ++ "'"])

/-- The settings of the project with what the options of a compilation change. -/
def compileConfig (c : Config) (templates : Option String) (resolveStatics sequential : Bool) :
    Config :=
  { c with
    templateDir := templates.or c.templateDir
    resolveStatics := resolveStatics || c.resolveStatics
    parallel := !sequential && c.parallel }

def runCommand (env : Config.Environment) (project : String) : Command → Step m Outcome
  | .compile task out symbolOrder templates resolveStatics sequential => do
    let c ← loadConfig env project symbolOrder
    runCompile (compileConfig c templates resolveStatics sequential) task out
  | .check task json => do
    let c ← loadConfig env project none
    runCheck c task json
  | .listVariables task symbolOrder => do
    let c ← loadConfig env project symbolOrder
    runVariables c task
  | .templates shown => runTemplates shown

/-- Carries out what arguments ask for. -/
def run (env : Config.Environment) (arguments : List String) : m Outcome := do
  match Invocation.ofArguments arguments with
  | .misuse e => return ⟨2, "", "error: " ++ e.message ++ "\n"⟩
  | .help command => return ⟨0, helpOn command, ""⟩
  | .run project command =>
    let here ← (FileStore.currentDirectory : m String)
    match ← (runCommand env (project.getD here) command : Step m Outcome).run with
    | .ok outcome => return outcome
    | .error f => return ⟨f.code, "", f.text⟩

end Grounder.CommandLine
