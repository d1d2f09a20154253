/-!
# `Grounder.Files.Path`: paths as texts

A path is kept as it was written and never normalised; only looking something up gives it a
meaning. The pieces between its slashes are names, or steps to the same directory or to the parent
directory. Empty pieces and single dots are skipped, except for a dot that begins the path.
-/

set_option autoImplicit false

namespace Grounder.Path

def isAbsolute (path : String) : Bool := path.toList.head? = some '/'

/-- The path below a base, or the path alone if it is absolute. -/
def join (base path : String) : String :=
  if isAbsolute path then path
  else if base.isEmpty || base.toList.getLast? = some '/' then base ++ path
  else base ++ "/" ++ path

/-- The pieces between slashes. -/
def pieces (path : List Char) : List String := (path.splitOn '/').map String.ofList

/-- Whether a piece stands for the directory it is looked up in. -/
def isSkipped (piece : String) : Bool := piece = "" || piece = "."

/-- What a path starts from: the root, the dot that begins it, or nothing; and the pieces after. -/
def split (path : String) : String × List String :=
  match path.toList with
  | '/' :: rest => ("/", pieces rest)
  | ['.'] => (".", [])
  | '.' :: '/' :: rest => (".", pieces ('/' :: rest))
  | cs => ("", pieces cs)

/-- Whether a path is relative and made of names only. -/
def isPlain (path : String) : Bool :=
  let (start, rest) := split path
  start = "" && rest.all fun piece => piece ≠ ".."

/-- The non-empty paths that lead to a step, nearest first, where `above` holds the pieces before
it, last one first. -/
def pathsAbove (start : String) : (above : List String) → List String
  | [] => if start = "" then [] else [start]
  | piece :: above =>
    if isSkipped piece then pathsAbove start above
    else (start ++ "/".intercalate (piece :: above).reverse) :: pathsAbove start above

/-- The non-empty paths that lead to a path, nearest first and without the path itself. -/
def ancestors (path : String) : List String :=
  let (start, rest) := split path
  match rest.reverse.dropWhile isSkipped with
  | [] => []
  | _ :: above => pathsAbove start above

/-- The path without its last step, where there is one. -/
def parent? (path : String) : Option String :=
  let (start, rest) := split path
  if rest.all isSkipped then if start = "." then some "" else none
  else some ((ancestors path).head?.getD "")

end Grounder.Path
