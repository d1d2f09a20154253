/-!
# `Grounder.CommandLine.Arguments`: what arguments ask for

Arguments name a command and its options. `CommandSpec` describes the options that a command
takes, and `Arguments.add` reads arguments one by one against it, up to the first that does not
fit or that asks for help.
-/

set_option autoImplicit false

namespace Grounder.CommandLine

/-- What an option takes. A path may not be empty. -/
inductive ValueKind where
  | flag
  | text
  | path
  deriving DecidableEq, Repr

/-- An option, by its long name, with the letter that may stand for it. -/
structure OptionSpec where
  name : String
  letter : Option Char
  kind : ValueKind
  about : String
  deriving DecidableEq, Repr

/-- A command, whether it works on a task file, and its options. -/
structure CommandSpec where
  name : String
  about : String
  takesTask : Bool
  options : List OptionSpec
  deriving DecidableEq, Repr

/-- The option that may stand before or after the command. -/
def projectOption : OptionSpec :=
  ⟨"project", some 'p', .path,
    "Project root directory holding .groundwork/config.toml (defaults to current directory)"⟩

def symbolOrderOption : OptionSpec :=
  ⟨"symbol-order", none, .text, "Symbol order for handle assignment: declaration, arity"⟩

def compileSpec : CommandSpec :=
  ⟨"compile", "Ground a task and write the generated artifacts", true,
    [⟨"out", some 'o', .path, "Output directory (defaults to output.dir from config)"⟩,
      symbolOrderOption,
      ⟨"templates", none, .path, "Directory with <name>.tpl files overriding built-in templates"⟩,
      ⟨"resolve-static-externals", none, .flag,
        "Resolve external constraints over static symbols at compile time"⟩,
      ⟨"sequential", none, .flag, "Generate units on the calling thread only"⟩]⟩

def checkSpec : CommandSpec :=
  ⟨"check", "Run grounding only and report the classification and counts", true,
    [⟨"json", none, .flag, "Print the report as JSON"⟩]⟩

def variablesSpec : CommandSpec :=
  ⟨"variables", "Print the state-variable index, one \u0060handle variable\u0060 per line", true,
    [symbolOrderOption]⟩

def templatesSpec : CommandSpec :=
  ⟨"templates", "List built-in templates and their slots", false,
    [⟨"show", none, .text, "Print the source of one template instead"⟩]⟩

/-- The commands, in the order in which they are listed. -/
def commandSpecs : List CommandSpec := [compileSpec, checkSpec, variablesSpec, templatesSpec]

/-- What is wrong with arguments. -/
inductive UsageError where
  | unexpected (argument : String)
  | missingValue (option : String)
  | emptyValue
  | repeated (option : String)
  | missingTask
  | missingCommand
  | unknownCommand (name : String)
  deriving DecidableEq, Repr

def UsageError.message : UsageError → String
  | .unexpected argument => "unexpected argument '" ++ argument ++ "' found"
  | .missingValue option => "a value is required for '--" ++ option ++ "' but none was supplied"
  | .emptyValue => "a value is required but none was supplied"
  | .repeated option => "the argument '--" ++ option ++ "' cannot be used multiple times"
  | .missingTask => "the following required arguments were not provided: <TASK>"
  | .missingCommand => "a command is required"
  | .unknownCommand name => "unrecognized command '" ++ name ++ "'"

/-- What a single argument may end the reading with. -/
inductive Stop where
  | usage (e : UsageError)
  | help
  deriving DecidableEq, Repr

/-- The arguments of one level that were read so far. -/
structure Arguments where
  task : Option String
  /-- The options given, with their values. Flags have an empty one. -/
  given : List (String × String)
  /-- The option that the next argument is the value of. -/
  pending : Option OptionSpec
  /-- What is wrong with the value that the last argument was. It shows when another argument of
  the level follows, or at the end. -/
  fault : Option UsageError
  /-- Whether no option may follow. -/
  isClosed : Bool
  deriving DecidableEq, Repr

namespace Arguments

def empty : Arguments := ⟨none, [], none, none, false⟩

/-- The value that was given for an option. -/
def value? (a : Arguments) (name : String) : Option String := a.given.lookup name

def hasFlag (a : Arguments) (name : String) : Bool := (a.value? name).isSome

/-- The arguments with the value of an option. -/
def give (a : Arguments) (o : OptionSpec) (value : String) : Except Stop Arguments :=
  if a.hasFlag o.name then .error (.usage (.repeated o.name))
  else if o.kind = .path ∧ value = "" then .error (.usage .emptyValue)
  else .ok { a with given := a.given ++ [(o.name, value)], pending := none }

/-- The arguments with an option that is written in full, and the value attached to it. -/
def addLong (a : Arguments) (options : List OptionSpec) (written : String) (name : String)
    (attached : Option String) : Except Stop Arguments :=
  if name = "help" ∧ attached.isNone then .error .help
  else
    match options.find? (·.name = name), attached with
    | none, _ => .error (.usage (.unexpected written))
    | some o, none => if o.kind = .flag then a.give o "" else .ok { a with pending := some o }
    | some o, some value =>
      if o.kind = .flag then .error (.usage (.unexpected written)) else a.give o value

/-- The arguments with options that are written by their letters. What follows the letter of an
option with a value is the value, after an equals sign or directly. -/
def addLetters (a : Arguments) (options : List OptionSpec) (written : String) :
    List Char → Except Stop Arguments
  | [] => .ok a
  | letter :: rest =>
    if letter = 'h' then .error .help
    else
      match options.find? (·.letter = some letter) with
      | none => .error (.usage (.unexpected written))
      | some o =>
        if o.kind = .flag then
          match a.give o "" with
          | .ok a' => addLetters a' options written rest
          | .error e => .error e
        else
          match rest with
          | [] => .ok { a with pending := some o }
          | '=' :: value => a.give o (String.ofList value)
          | value => a.give o (String.ofList value)

/-- The arguments with one that is no option. -/
def addWord (a : Arguments) (takesTask : Bool) (word : String) : Except Stop Arguments :=
  if !takesTask || a.task.isSome then .error (.usage (.unexpected word))
  else if word = "" then .error (.usage .emptyValue)
  else .ok { a with task := some word }

/-- Whether an argument can only be an option. -/
def isOption (argument : String) : Bool :=
  argument.toList.head? = some '-' && argument ≠ "-"

/-- The arguments with an option that is no value of the one before. -/
def addOption (a : Arguments) (options : List OptionSpec) (argument : String) :
    Except Stop Arguments :=
  match argument.toList with
  | ['-', '-'] => .ok { a with isClosed := true }
  | '-' :: '-' :: rest =>
    let name := String.ofList (rest.takeWhile (· ≠ '='))
    match rest.dropWhile (· ≠ '=') with
    | [] => a.addLong options argument name none
    | _ :: value => a.addLong options argument name (some (String.ofList value))
  | _ :: letters => a.addLetters options argument letters
  | [] => .ok a

/-- The arguments with the value of the option that waits for one. -/
def addValue (a : Arguments) (o : OptionSpec) (value : String) : Except Stop Arguments :=
  match a.give o value with
  | .error (.usage e) => .ok { a with pending := none, fault := some e }
  | given => given

/-- The arguments with one more. -/
def add (a : Arguments) (spec : CommandSpec) (argument : String) : Except Stop Arguments :=
  match a.fault, a.pending with
  | some e, _ => .error (.usage e)
  | none, some o =>
    if isOption argument then .error (.usage (.missingValue o.name)) else a.addValue o argument
  | none, none =>
    if isOption argument && !a.isClosed then a.addOption spec.options argument
    else a.addWord spec.takesTask argument

/-- The arguments at the end, where no value may be missing. -/
def finish (a : Arguments) (spec : CommandSpec) : Except Stop Arguments :=
  match a.fault, a.pending with
  | some e, _ => .error (.usage e)
  | none, some o => .error (.usage (.missingValue o.name))
  | none, none => if spec.takesTask && a.task.isNone then .error (.usage .missingTask) else .ok a

end Arguments

/-! ### Commands -/

/-- A command with its options. -/
inductive Command where
  | compile (task : String) (out symbolOrder templates : Option String)
      (resolveStatics sequential : Bool)
  | check (task : String) (json : Bool)
  | listVariables (task : String) (symbolOrder : Option String)
  | templates (shown : Option String)
  deriving DecidableEq, Repr

/-- What the arguments as a whole ask for. -/
inductive Invocation where
  | run (project : Option String) (command : Command)
  /-- The help on a command, or on all of them. -/
  | help (command : Option CommandSpec)
  | misuse (e : UsageError)
  deriving DecidableEq, Repr

/-- The command that finished arguments ask for. -/
def Command.ofArguments (spec : CommandSpec) (a : Arguments) : Command :=
  let task := a.task.getD ""
  if spec.name = "compile" then
    .compile task (a.value? "out") (a.value? "symbol-order") (a.value? "templates")
      (a.hasFlag "resolve-static-externals") (a.hasFlag "sequential")
  else if spec.name = "check" then .check task (a.hasFlag "json")
  else if spec.name = "variables" then .listVariables task (a.value? "symbol-order")
  else .templates (a.value? "show")

namespace Invocation

/-- What the arguments after a command ask for, where `project` was given before it. -/
def ofCommand (project : Option String) (spec : CommandSpec) (arguments : List String) :
    Invocation :=
  let spec' := { spec with options := spec.options ++ [projectOption] }
  let read := do
    let a ← arguments.foldlM (fun (a : Arguments) argument => a.add spec' argument) .empty
    a.finish spec'
  match read with
  | .ok a => .run ((a.value? "project").or project) (.ofArguments spec a)
  | .error .help => .help (some spec)
  | .error (.usage e) => .misuse e

/-- The command that explains the others. -/
def helpSpec : CommandSpec :=
  ⟨"help", "Print this message or the help of the given subcommand(s)", false, []⟩

/-- What the names after the command for help ask for. -/
def ofHelp : List String → Invocation
  | [] => .help none
  | [name] =>
    match (commandSpecs ++ [helpSpec]).find? (·.name = name) with
    | some spec => .help (some spec)
    | none => .misuse (.unknownCommand name)
  | _ :: name :: _ => .misuse (.unknownCommand name)

/-- What stands before the command. -/
def outerSpec : CommandSpec :=
  ⟨"groundwork", "Grounding and code generation for planning tasks", false, [projectOption]⟩

/-- What is asked for if something may be wrong with the value right before the command. Help on
the command is given all the same. -/
def checked (fault : Option UsageError) : Invocation → Invocation
  | .run project command =>
    match fault with
    | some e => .misuse e
    | none => .run project command
  | invocation => invocation

/-- What arguments ask for, where `a` holds those before. -/
def ofRest (a : Arguments) : List String → Invocation
  | [] =>
    match a.finish outerSpec with
    | .ok _ => .misuse .missingCommand
    | .error .help => .help none
    | .error (.usage e) => .misuse e
  | argument :: rest =>
    if a.pending.isNone && !Arguments.isOption argument && !a.isClosed then
      if argument = helpSpec.name then ofHelp rest
      else
        match commandSpecs.find? (·.name = argument) with
        | some spec => checked a.fault (ofCommand (a.value? "project") spec rest)
        | none => .misuse (.unknownCommand argument)
    else
      match a.add outerSpec argument with
      | .ok a' => ofRest a' rest
      | .error .help => .help none
      | .error (.usage e) => .misuse e

/-- What arguments ask for. -/
def ofArguments (arguments : List String) : Invocation := ofRest .empty arguments

end Invocation

end Grounder.CommandLine
