/-!
# `Grounder.Text.Lines`: the lines of a text

A line ends at a line feed, and a carriage return before the line feed belongs to the line end.
What follows the last line feed is a line only if it is not empty.
-/

set_option autoImplicit false

namespace Grounder.Text

/-- The line without the carriage return at its end, if there is one. -/
def dropReturn (line : List Char) : List Char :=
  if line.getLast? = some '\r' then line.dropLast else line

/-- The lines among pieces that line feeds separate. -/
def linesOfPieces : List (List Char) → List (List Char)
  | [] => []
  | [rest] => if rest.isEmpty then [] else [rest]
  | line :: rest => dropReturn line :: linesOfPieces rest

/-- The lines of a text, without their line ends. -/
def lines (s : String) : List String :=
  (linesOfPieces (s.toList.splitOn '\n')).map String.ofList

/-- Every text of the list followed by a line feed. -/
def unlines (texts : List String) : String := String.join (texts.map (· ++ "\n"))

end Grounder.Text
