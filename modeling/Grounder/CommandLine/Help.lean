import Grounder.CommandLine.Arguments
import Grounder.Text.Lines

/-!
# `Grounder.CommandLine.Help`: the text that explains a command

A list of arguments has two columns, what is written and what it is for. The second column starts
two characters after the longest entry of the first.
-/

set_option autoImplicit false

namespace Grounder.CommandLine

/-- The text in a field of at least `width` characters. -/
def padded (width : Nat) (s : String) : String :=
  s ++ String.ofList (List.replicate (width - s.length) ' ')

/-- A row of a list: what is written, with its letter in front, and what it is for. -/
structure HelpRow where
  letter : String
  written : String
  about : String

namespace HelpRow

/-- The rows as lines. -/
def lines (rows : List HelpRow) : List String :=
  let width := (rows.map (·.written.length)).foldl max 0
  rows.map fun row => "  " ++ row.letter ++ padded (width + 2) row.written ++ row.about

end HelpRow

/-- What is written for an option. -/
def OptionSpec.written (o : OptionSpec) : String :=
  let placeholder := String.ofList (o.name.toList.map fun c => if c = '-' then '_' else c.toUpper)
  if o.kind = .flag then "--" ++ o.name else "--" ++ o.name ++ " <" ++ placeholder ++ ">"

def OptionSpec.row (o : OptionSpec) : HelpRow :=
  let letter := match o.letter with
    | some c => String.ofList ['-', c, ',', ' ']
    | none => "    "
  ⟨letter, o.written, o.about⟩

/-- The row of the option that asks for help. -/
def helpRow : HelpRow := ⟨"-h, ", "--help", "Print help"⟩

/-- The rows of the options of a command, in the order of their declaration. The option that all
commands have comes first, unless the first one of the command goes before it by its letter, or by
its name if it has none. -/
def CommandSpec.optionRows (spec : CommandSpec) : List HelpRow :=
  let rows := spec.options.map OptionSpec.row
  match spec.options with
  | [] => [projectOption.row, helpRow]
  | first :: _ =>
    let key := (first.letter.map fun c => String.ofList [c]).getD first.name
    if key < "p" then rows.take 1 ++ projectOption.row :: rows.drop 1 ++ [helpRow]
    else projectOption.row :: rows ++ [helpRow]

/-- The help on a command. -/
def CommandSpec.help (spec : CommandSpec) : String :=
  let usage := "Usage: groundwork " ++ spec.name ++ " [OPTIONS]" ++
    if spec.takesTask then " <TASK>" else ""
  let arguments :=
    if spec.takesTask then
      "Arguments:" :: HelpRow.lines [⟨"", "<TASK>", "Task file produced by the parser (JSON)"⟩] ++
        [""]
    else []
  Text.unlines
    ([spec.about, "", usage, ""] ++ arguments ++ "Options:" :: HelpRow.lines spec.optionRows)

/-- The help on the command that explains the others. -/
def helpOnHelp : String :=
  Text.unlines
    ([Invocation.helpSpec.about, "", "Usage: groundwork help [COMMAND]...", "", "Arguments:"] ++
      HelpRow.lines [⟨"", "[COMMAND]...", "Print help for the subcommand(s)"⟩])

/-- The help on all commands. -/
def generalHelp : String :=
  let commands := (commandSpecs ++ [Invocation.helpSpec]).map fun spec =>
    (⟨"", spec.name, spec.about⟩ : HelpRow)
  Text.unlines
    ([Invocation.outerSpec.about, "", "Usage: groundwork [OPTIONS] <COMMAND>", "", "Commands:"] ++
      HelpRow.lines commands ++ ["", "Options:"] ++ HelpRow.lines [projectOption.row, helpRow])

/-- The help on a command, or on all of them. -/
def helpOn : Option CommandSpec → String
  | none => generalHelp
  | some spec => if spec.name = Invocation.helpSpec.name then helpOnHelp else spec.help

end Grounder.CommandLine
