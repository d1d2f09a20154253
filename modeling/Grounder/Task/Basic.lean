import Grounder.Json.Value
import Grounder.Task.Formula

/-!
# `Grounder.Task.Basic`: lifted planning tasks

A lifted task is what a parser hands over: types as lists of objects, declared predicates and
functions, action schemas, the initial facts and the constraints that hold in every state. Names
are plain texts; nothing here checks that they are declared.
-/

set_option autoImplicit false

namespace Grounder

/-- A type and the objects that belong to it, in order. -/
structure TypeDomain where
  name : String
  objects : List String
  deriving DecidableEq, Repr

/-- A predicate with the types of its parameters. -/
structure PredicateSignature where
  name : String
  params : List String
  deriving DecidableEq, Repr

/-- A function with the types of its parameters and of its values. -/
structure FunctionSignature where
  name : String
  params : List String
  codomain : String
  deriving DecidableEq, Repr

/-- A parameter of an action with its type. -/
structure Parameter where
  name : String
  type : String
  deriving DecidableEq, Repr

/-- One effect of an action. Its shape is judged when code is generated. -/
structure Effect where
  symbol : String
  args : List Term
  value : Option Term
  negated : Bool
  condition : Option Formula
  deriving Repr

/-- The effect as messages and generated comments show it. -/
def Effect.text (e : Effect) : String :=
  (if e.negated then "not " else "") ++ Term.applied e.symbol (Term.texts e.args) ++
    (match e.value with | some v => " := " ++ v.text | none => "") ++
    (if e.condition.isSome then " [conditional]" else "")

/-- An action schema. -/
structure Action where
  name : String
  params : List Parameter
  precondition : Formula
  effects : List Effect
  deriving Repr

/-- The position of a parameter, the first one of that name. -/
def Action.paramPosition? (a : Action) (name : String) : Option Nat :=
  a.params.findIdx? (·.name = name)

/-- An element of the initial state: an atom that holds, or a function value. -/
inductive InitialFact where
  | atom (symbol : String) (args : List String) (negated : Bool)
  | assign (symbol : String) (args : List String) (value : String)
  deriving DecidableEq, Repr

namespace InitialFact

def symbol : InitialFact → String
  | .atom symbol _ _ => symbol
  | .assign symbol _ _ => symbol

def args : InitialFact → List String
  | .atom _ args _ => args
  | .assign _ args _ => args

/-- The element as messages show it. -/
def text : InitialFact → String
  | .atom symbol args negated => (if negated then "not " else "") ++ Term.applied symbol args
  | .assign symbol args value => Term.applied symbol args ++ " := " ++ value

end InitialFact

/-- A lifted task. The goal is carried along and never looked into. -/
structure Task where
  domain : String
  instanceName : String
  typeDomains : List TypeDomain
  objects : List String
  predicates : List PredicateSignature
  functions : List FunctionSignature
  actions : List Action
  init : List InitialFact
  constraints : List ConstraintUse
  goal : Option Json.Value
  deriving Repr

end Grounder
