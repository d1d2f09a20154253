/-!
# `Grounder.Task.Term`: terms of a lifted task

A term is a parameter of the enclosing action, an object, an integer, or a function applied to
terms. A parameter is recognised by the question mark in front of its name, so a name alone tells
which of the two it is.
-/

set_option autoImplicit false

namespace Grounder

/-- A term of a lifted task. -/
inductive Term where
  | param (name : String)
  | object (name : String)
  | int (value : Int64)
  | app (symbol : String) (args : List Term)
  deriving Repr

namespace Term

/-- The parameter or the object of that name. -/
def ofName (name : String) : Term :=
  if name.toList.head? = some '?' then .param name else .object name

/-- A name applied to arguments, as texts show it. -/
def applied (symbol : String) (args : List String) : String :=
  symbol ++ "(" ++ ",".intercalate args ++ ")"

mutual

/-- The term as messages and listings show it. -/
def text : Term → String
  | .param name => name
  | .object name => name
  | .int value => toString value.toInt
  | .app symbol args => applied symbol (texts args)

/-- The text of every term. -/
def texts : List Term → List String
  | [] => []
  | t :: rest => t.text :: texts rest

end

mutual

/-- Whether the term applies, at any depth, a symbol with the property. -/
def mentions (p : String → Bool) : Term → Bool
  | .app symbol args => p symbol || anyMentions p args
  | _ => false

/-- Whether one of the terms applies a symbol with the property. -/
def anyMentions (p : String → Bool) : List Term → Bool
  | [] => false
  | t :: rest => t.mentions p || anyMentions p rest

end

mutual

/-- The first parameter in the term, from left to right. -/
def firstParam? : Term → Option String
  | .param name => some name
  | .app _ args => firstParamAmong? args
  | _ => none

/-- The first parameter in the terms. -/
def firstParamAmong? : List Term → Option String
  | [] => none
  | t :: rest => t.firstParam?.or (firstParamAmong? rest)

end

/-- Whether the term is a function application. -/
def isApp : Term → Bool
  | .app _ _ => true
  | _ => false

end Term

end Grounder
