import Grounder.GroundModel
import Grounder.Template.Rendering

/-!
# `Grounder.Code.Expression`: expressions of generated code

Terms and atoms become expressions over the binding of an action's parameters. Objects and symbols
stand by their ids, and what is asked of a symbol goes to the state if the symbol is fluent and to
the static data otherwise.
-/

set_option autoImplicit false

namespace Grounder

/-- What the expressions of an action's unit refer to. -/
structure CodeScope where
  model : GroundModel
  action : Action

namespace CodeScope

/-- The error that there is no code for something in the action. -/
def invalid (s : CodeScope) (fault : TermFault) : CompileError := .invalidTerm s.action.name fault

/-- Texts as a list of arguments. -/
def joined (texts : List String) : String := ", ".intercalate texts

/-- What answers questions about a symbol. -/
def source (s : CodeScope) (symbol : String) : String :=
  if s.model.classification.isFluent symbol then "state" else "statics"

/-- The declared symbol of that name. -/
def require (s : CodeScope) (symbol : String) : Rendering Symbol :=
  .ofGround (s.model.symbols.require symbol s.action.name)

/-- Goes on if a condition holds. -/
def check (s : CodeScope) (holds : Bool) (fault : TermFault) : Rendering Unit :=
  if holds then pure () else .fail (s.invalid fault)

/-- Goes on if a symbol is applied to as many arguments as it takes. -/
def checkArity (s : CodeScope) (symbol : Symbol) (args : List Term) : Rendering Unit :=
  s.check (symbol.arity == args.length) (.argumentCount symbol.name symbol.arity args.length)

/-- The code of a parameter: its place in the binding. -/
def paramCode (s : CodeScope) (name : String) : Rendering String :=
  match s.action.paramPosition? name with
  | some position => pure ("binding[" ++ toString position ++ "]")
  | none => .fail (.ground (.unknownParameter s.action.name name))

/-- The code of an object: its id. -/
def objectCode (s : CodeScope) (name : String) : Rendering String :=
  match s.model.objects.id? name with
  | some id => pure (toString id)
  | none => .fail (s.invalid (.unknownObject name))

mutual

/-- The code of a term. -/
def term (s : CodeScope) : Term → Rendering String
  | .param name => s.paramCode name
  | .object name => s.objectCode name
  | .int value => pure (toString value.toInt)
  | .app symbol args => do
    let sym ← s.require symbol
    s.check (!sym.isPredicate) (.predicateAsTerm symbol)
    s.checkArity sym args
    let codes ← s.terms args
    .fill "term_value"
      [("source", s.source symbol), ("symbol_id", toString sym.id), ("args", joined codes)]

/-- The code of every term. -/
def terms (s : CodeScope) : List Term → Rendering (List String)
  | [] => pure []
  | t :: rest => do
    let code ← s.term t
    let codes ← s.terms rest
    return code :: codes

end

/-- The code of a list of terms as arguments. -/
def args (s : CodeScope) (ts : List Term) : Rendering String := joined <$> s.terms ts

/-- The code that compares two objects. -/
def equalityCode (s : CodeScope) : List String → Rendering String
  | [lhs, rhs] => pure ("(" ++ lhs ++ " == " ++ rhs ++ ")")
  | codes => .fail (s.invalid (.argumentCount "equality" 2 codes.length))

/-- The code that asks whether a predicate holds of arguments. -/
def holdsCode (s : CodeScope) (sym : Symbol) (codes : List String) : Rendering String :=
  let common := [("source", s.source sym.name), ("symbol_id", toString sym.id)]
  match codes with
  | [code] => .fill "holds_unary" (common ++ [("arg", code)])
  | _ => .fill "holds_nary" (common ++ [("args", joined codes)])

/-- The code of an atom without its sign. -/
def positiveAtom (s : CodeScope) (symbol : String) (ts : List Term) : Rendering String := do
  let codes ← s.terms ts
  if symbol = equality then s.equalityCode codes
  else
    let sym ← s.require symbol
    s.check sym.isPredicate (.functionAsAtom symbol)
    s.checkArity sym ts
    s.holdsCode sym codes

/-- The code of an atom. -/
def atom (s : CodeScope) (symbol : String) (ts : List Term) (negated : Bool) :
    Rendering String := do
  let code ← s.positiveAtom symbol ts
  return if negated then "!(" ++ code ++ ")" else code

/-- The code of a comparison. -/
def relation (s : CodeScope) (op : Comparison) (lhs rhs : Term) : Rendering String := do
  let l ← s.term lhs
  let r ← s.term rhs
  return "(" ++ l ++ " " ++ op.operator ++ " " ++ r ++ ")"

end CodeScope

end Grounder
