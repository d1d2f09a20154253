/-!
# `Grounder.Code.ClassName`: names of classes for actions

The class of an action runs the words of the action's name together, each with a capital, and ends
in `Action`. Words are the runs of ASCII letters and digits; everything else separates them.
-/

set_option autoImplicit false

namespace Grounder

/-- The words run together, where `start` tells whether the next character would begin a word. -/
def joinWords (start : Bool) : List Char → List Char
  | [] => []
  | c :: rest =>
    if c.isAlphanum then (if start then c.toUpper else c) :: joinWords false rest
    else joinWords true rest

/-- The class of the action of that name. -/
def className (action : String) : String :=
  String.ofList (joinWords true action.toList) ++ "Action"

end Grounder
