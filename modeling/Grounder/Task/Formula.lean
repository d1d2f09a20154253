import Grounder.Task.Term

/-!
# `Grounder.Task.Formula`: preconditions

Preconditions are conjunctions, nested in any way, of atoms, comparisons and uses of constraints.
`Formula.conjuncts` is the list of these that the nesting spells out; planning and rendering see a
precondition through it alone.
-/

set_option autoImplicit false

namespace Grounder

/-- How a precondition compares two terms. -/
inductive Comparison where
  | equal
  | different
  | less
  | atMost
  | greater
  | atLeast
  deriving DecidableEq, Repr

namespace Comparison

/-- The sign of a comparison in a task. -/
def sign : Comparison → String
  | .equal => "="
  | .different => "!="
  | .less => "<"
  | .atMost => "<="
  | .greater => ">"
  | .atLeast => ">="

/-- The operator of a comparison in generated code. -/
def operator : Comparison → String
  | .equal => "=="
  | .different => "!="
  | .less => "<"
  | .atMost => "<="
  | .greater => ">"
  | .atLeast => ">="

/-- All comparisons, in the order of their declaration. -/
def all : List Comparison := [.equal, .different, .less, .atMost, .greater, .atLeast]

/-- The comparison with that sign. -/
def ofSign? (s : String) : Option Comparison := all.find? (·.sign = s)

end Comparison

/-- A use of a named constraint over terms. -/
structure ConstraintUse where
  name : String
  parameters : List String
  args : List Term
  deriving Repr

/-- A precondition. -/
inductive Formula where
  | true
  | atom (symbol : String) (args : List Term) (negated : Bool)
  | relation (op : Comparison) (lhs rhs : Term)
  | and (conjuncts : List Formula)
  | constraint (use : ConstraintUse)
  deriving Repr

namespace Formula

mutual

/-- The members of the conjunction that the formula amounts to, without any `true`. -/
def conjuncts : Formula → List Formula
  | .true => []
  | .and parts => conjunctsOfAll parts
  | f => [f]

/-- The conjuncts of all the formulas, one after another. -/
def conjunctsOfAll : List Formula → List Formula
  | [] => []
  | f :: rest => f.conjuncts ++ conjunctsOfAll rest

end

/-- The constraint that a conjunct uses, if it is one. -/
def use? : Formula → Option ConstraintUse
  | .constraint use => some use
  | _ => none

/-- The constraints that a precondition uses, in the order of its conjuncts. -/
def uses (f : Formula) : List ConstraintUse := f.conjuncts.filterMap use?

end Formula

end Grounder
