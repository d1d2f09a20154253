import Grounder.StateVariable

/-!
# `Grounder.GroundingError`: what can go wrong while grounding

Each constructor is one cause, with what the message needs. `GroundingError.message` is the wording.
-/

set_option autoImplicit false

namespace Grounder

/-- Why an element of the initial state is not valid. -/
inductive InitFault where
  | equality
  | argumentCount (expected given : Nat)
  | functionAsAtom
  | negatedAtom
  | predicateWithValue
  | notNumeric (value codomain : String)
  | notInCodomain (value codomain : String)
  deriving DecidableEq, Repr

def InitFault.message : InitFault → String
  | .equality => "equality cannot be initialized"
  | .argumentCount expected given =>
    "expected " ++ toString expected ++ " arguments, got " ++ toString given
  | .functionAsAtom => "function symbol initialized as an atom"
  | .negatedAtom => "negated atoms are not allowed in the initial state"
  | .predicateWithValue => "predicate symbol initialized with a value"
  | .notNumeric value codomain => "'" ++ value ++ "' is not a valid " ++ codomain
  | .notInCodomain value codomain => "'" ++ value ++ "' is not an object of type " ++ codomain

/-- Why a constraint of the catalog does not fit its parameters or variables. -/
inductive ConstraintFault where
  | tooFewVariables (given : Nat)
  | notTwoVariables (given : Nat)
  | noRelation
  deriving DecidableEq, Repr

def ConstraintFault.message : ConstraintFault → String
  | .tooFewVariables given => "needs at least 2 variables, got " ++ toString given
  | .notTwoVariables given => "needs exactly 2 variables, got " ++ toString given
  | .noRelation => "first parameter must name the external relation"

/-- The shapes of effects for which there is no code. -/
inductive EffectFault where
  | conditional
  | staticSymbol
  | nestedTerm
  | predicateWithValue
  | negatedFunction
  | functionWithoutValue
  deriving DecidableEq, Repr

/-- What an effect shown as `effect` is found to be. -/
def EffectFault.message (effect : String) : EffectFault → String
  | .conditional => "conditional effect " ++ effect
  | .staticSymbol => "effect on static symbol " ++ effect
  | .nestedTerm => "nested function term in " ++ effect
  | .predicateWithValue => "value assigned to predicate in " ++ effect
  | .negatedFunction => "negated function effect " ++ effect
  | .functionWithoutValue => "function effect without value " ++ effect

/-- A failure of grounding. The first one ends the run. -/
inductive GroundingError where
  | unknownSymbol (symbol context : String)
  | unknownType (type symbol : String)
  | unboundedDomain (type symbol : String)
  | undeclaredObject (object type : String)
  | duplicateSymbol (symbol : String)
  | duplicateRegistration (v : StateVariable)
  | duplicateInitialization (v : StateVariable) (element : String)
  | invalidInit (element : String) (fault : InitFault)
  | outOfDomain (v : StateVariable)
  | unsupportedConstraint (name : String)
  | invalidConstraint (name : String) (fault : ConstraintFault)
  | effectShape (action effect : String) (fault : EffectFault)
  | unknownParameter (action param : String)
  /-- A stride is no word. The arithmetic is checked, and the run is broken off there. -/
  | strideOverflow
  deriving DecidableEq, Repr

def GroundingError.message : GroundingError → String
  | .unknownSymbol symbol context =>
    "unknown symbol '" ++ symbol ++ "' referenced in " ++ context
  | .unknownType type symbol => "unknown type '" ++ type ++ "' used by symbol '" ++ symbol ++ "'"
  | .unboundedDomain type symbol =>
    "type '" ++ type ++ "' of fluent symbol '" ++ symbol ++ "' has no finite object listing"
  | .undeclaredObject object type =>
    "object '" ++ object ++ "' of type '" ++ type ++ "' is missing from the object list"
  | .duplicateSymbol symbol => "symbol '" ++ symbol ++ "' is declared more than once"
  | .duplicateRegistration v => "ground variable " ++ v.text ++ " registered twice"
  | .duplicateInitialization v element =>
    v.text ++ " initialized twice (second occurrence: " ++ element ++ ")"
  | .invalidInit element fault => "invalid initialization '" ++ element ++ "': " ++ fault.message
  | .outOfDomain v => v.text ++ " lies outside the declared argument domains"
  | .unsupportedConstraint name => "unsupported constraint '" ++ name ++ "'"
  | .invalidConstraint name fault =>
    "invalid instantiation of constraint '" ++ name ++ "': " ++ fault.message
  | .effectShape action effect fault =>
    "unimplemented effect shape in action '" ++ action ++ "': " ++ fault.message effect
  | .unknownParameter action param =>
    "unknown parameter '" ++ param ++ "' in action '" ++ action ++ "'"
  | .strideOverflow => "attempt to multiply with overflow"

end Grounder
