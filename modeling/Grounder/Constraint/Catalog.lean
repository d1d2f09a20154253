import Grounder.GroundingError

/-!
# `Grounder.Constraint.Catalog`: the constraints that generated code can use

Four kinds of constraints have a class in the runtime. A kind is known by its name in tasks, and
says which parameters and variables fit it. External constraints are relations of the runtime that
the first parameter names.
-/

set_option autoImplicit false

namespace Grounder

/-- What a constraint demands of its variables. -/
inductive ConstraintKind where
  /-- Pairwise different values. -/
  | allDifferent
  /-- The last variable is the sum of the others. -/
  | sum
  /-- The first of two variables is at least the second. -/
  | greaterEqual
  /-- A relation of the runtime. -/
  | external
  deriving DecidableEq, Repr

namespace ConstraintKind

/-- The name in tasks. -/
def name : ConstraintKind → String
  | .allDifferent => "alldiff"
  | .sum => "sum"
  | .greaterEqual => "geq"
  | .external => "external"

/-- The name in reports. -/
def reportName : ConstraintKind → String
  | .allDifferent => "all_different"
  | .sum => "sum"
  | .greaterEqual => "greater_equal"
  | .external => "external"

/-- The class of the runtime that checks such constraints. -/
def runtimeClass : ConstraintKind → String
  | .allDifferent => "AlldiffConstraint"
  | .sum => "SumConstraint"
  | .greaterEqual => "GeqConstraint"
  | .external => "ExternalConstraint"

/-- All kinds, in the order of the catalog. -/
def all : List ConstraintKind := [.allDifferent, .sum, .greaterEqual, .external]

/-- The kind of that name. -/
def ofName? (name : String) : Option ConstraintKind := all.find? (·.name = name)

/-- What is wrong with parameters and variables for a constraint of this kind. -/
def fault? (kind : ConstraintKind) (parameters vars : List String) :
    Option ConstraintFault :=
  match kind with
  | .allDifferent | .sum =>
    if vars.length < 2 then some (.tooFewVariables vars.length) else none
  | .greaterEqual =>
    if vars.length ≠ 2 then some (.notTwoVariables vars.length) else none
  | .external => if parameters.head?.getD "" = "" then some .noRelation else none

end ConstraintKind

/-- A constraint of the catalog over concrete variables. -/
structure CatalogConstraint where
  name : String
  kind : ConstraintKind
  parameters : List String
  vars : List String
  deriving DecidableEq, Repr

namespace CatalogConstraint

/-- The constraint of that name, if the parameters and variables fit it. -/
def make (name : String) (parameters vars : List String) :
    Except GroundingError CatalogConstraint :=
  match ConstraintKind.ofName? name with
  | none => .error (.unsupportedConstraint name)
  | some kind =>
    match kind.fault? parameters vars with
    | some fault => .error (.invalidConstraint name fault)
    | none => .ok ⟨name, kind, parameters, vars⟩

/-- The relation that an external constraint names. -/
def externalRelation? (d : CatalogConstraint) : Option String :=
  if d.kind = .external then d.parameters.head? else none

end CatalogConstraint

end Grounder
