import Grounder.Task.Term
import Grounder.Text.Blank

/-!
# `Grounder.StateVariable`: fluent symbols applied to objects

A state variable is a symbol together with its arguments. Its listing form is `symbol(a,b)`, and
reading one back accepts white space around the whole and around every argument.
-/

set_option autoImplicit false

namespace Grounder

/-- A symbol applied to objects. -/
structure StateVariable where
  symbol : String
  args : List String
  deriving DecidableEq, Repr

namespace StateVariable

/-- The listing form. -/
def text (v : StateVariable) : String := Term.applied v.symbol v.args

/-- Why a text is not the listing form of a variable. -/
inductive ParseError where
  | noOpening (text : String)
  | noClosing (text : String)
  | noSymbol (text : String)
  deriving DecidableEq, Repr

def ParseError.message : ParseError → String
  | .noOpening text => "missing '(' in variable '" ++ text ++ "'"
  | .noClosing text => "missing ')' in variable '" ++ text ++ "'"
  | .noSymbol text => "missing symbol in variable '" ++ text ++ "'"

/-- The arguments between the parentheses. Nothing at all stands for no arguments. -/
def argsOf (inner : List Char) : List String :=
  if inner.isEmpty then []
  else (inner.splitOn ',').map fun arg => String.ofList (Text.trimChars arg)

/-- The variable whose listing form the text is, up to white space. The symbol ends at the first
opening parenthesis, and the closing one is the last character. -/
def parse (s : String) : Except ParseError StateVariable :=
  let cs := Text.trimChars s.toList
  let shown := String.ofList cs
  let symbol := cs.takeWhile (· ≠ '(')
  match cs.dropWhile (· ≠ '(') with
  | [] => .error (.noOpening shown)
  | _ :: inside =>
    if inside.getLast? ≠ some ')' then .error (.noClosing shown)
    else if symbol.isEmpty then .error (.noSymbol shown)
    else .ok ⟨String.ofList symbol, argsOf inside.dropLast⟩

end StateVariable

end Grounder
