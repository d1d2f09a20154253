import Grounder.Constraint.Catalog
import Grounder.GroundModel

/-!
# `Grounder.Constraint.Plan`: numbering the constraints of a task

Every use of a constraint gets a number before any code is rendered, so that units can be rendered
in any order. The constraints on states come first, then those of each action's precondition in
the order of its conjuncts.

A use is static when it is decided before the search, against data that no action changes. Only
external constraints that read no fluent symbol qualify, and only on demand.
-/

set_option autoImplicit false

namespace Grounder

/-- Where a constraint is used. -/
inductive ConstraintOrigin where
  /-- In every state. -/
  | state
  /-- In the precondition of the action of that name. -/
  | action (name : String)
  deriving DecidableEq, Repr

def ConstraintOrigin.text : ConstraintOrigin → String
  | .state => "state constraint"
  | .action name => "action " ++ name

/-- A checked use of a constraint that has no number yet. -/
structure PlannedUse where
  constraint : CatalogConstraint
  origin : ConstraintOrigin
  isStatic : Bool
  args : List Term
  deriving Repr

/-- A use of a constraint with its number. -/
structure NumberedUse extends PlannedUse where
  id : Nat
  deriving Repr

namespace NumberedUse

/-- The file that a use which is checked during the search gets. -/
def unitName (c : NumberedUse) : String :=
  "constraints/" ++ toString c.id ++ "_" ++ c.constraint.name ++ ".hxx"

end NumberedUse

/-- All uses of constraints in a task; the number of a use is its position. -/
structure ConstraintPlan where
  uses : List NumberedUse
  /-- The numbers that the preconditions of the actions use, action by action. -/
  perAction : List (List Nat)
  deriving Repr

namespace ConstraintPlan

/-- The numbers that the precondition of an action uses, in the order of its conjuncts. -/
def forAction (plan : ConstraintPlan) (position : Nat) : List Nat :=
  plan.perAction[position]?.getD []

/-- The uses that are checked during the search. -/
def deferred (plan : ConstraintPlan) : List NumberedUse :=
  plan.uses.filter fun c => !c.isStatic

/-- The uses that are decided before the search. -/
def statics (plan : ConstraintPlan) : List NumberedUse :=
  plan.uses.filter (·.isStatic)

/-! ### Planning -/

/-- Whether a constraint over some terms can be decided before the search. -/
def isResolvable (c : Classification) (kind : ConstraintKind) (args : List Term) : Bool :=
  kind == .external && !Term.anyMentions c.isFluent args

/-- A use that fits the catalog. -/
def checkUse (c : Classification) (resolve : Bool) (origin : ConstraintOrigin)
    (use : ConstraintUse) : Except GroundingError PlannedUse := do
  let d ← CatalogConstraint.make use.name use.parameters (Term.texts use.args)
  return ⟨d, origin, resolve && isResolvable c d.kind use.args, use.args⟩

/-- The name that messages give the place of the constraints on states. -/
def stateScope : String := "state constraints"

/-- A use in every state. It belongs to no action, so there is no parameter that it may mention. -/
def checkStateUse (c : Classification) (resolve : Bool) (use : ConstraintUse) :
    Except GroundingError PlannedUse :=
  match Term.firstParamAmong? use.args with
  | some param => .error (.unknownParameter stateScope param)
  | none => checkUse c resolve .state use

/-- The plan with one more use, which gets the next number. -/
def push (plan : ConstraintPlan) (use : PlannedUse) : ConstraintPlan :=
  { plan with uses := plan.uses ++ [{ use with id := plan.uses.length }] }

/-- The plan with one more use in every state. -/
def addStateUse (c : Classification) (resolve : Bool) (plan : ConstraintPlan)
    (use : ConstraintUse) : Except GroundingError ConstraintPlan := do
  let planned ← checkStateUse c resolve use
  return plan.push planned

/-- The plan with one more use of an action. The number of the use joins those that the action has
so far. -/
def addUse (c : Classification) (resolve : Bool) (action : String)
    (found : ConstraintPlan × List Nat) (use : ConstraintUse) :
    Except GroundingError (ConstraintPlan × List Nat) := do
  let planned ← checkUse c resolve (.action action) use
  return (found.1.push planned, found.2 ++ [found.1.uses.length])

/-- The plan with the uses of one more action, and the list of their numbers. -/
def addAction (c : Classification) (resolve : Bool) (plan : ConstraintPlan) (a : Action) :
    Except GroundingError ConstraintPlan := do
  let found ← a.precondition.uses.foldlM (addUse c resolve a.name) (plan, [])
  return { found.1 with perAction := found.1.perAction ++ [found.2] }

/-- The plan of a task whose symbols are classified, with static uses if `resolve` asks for them. -/
def ofTask (t : Task) (c : Classification) (resolve : Bool) :
    Except GroundingError ConstraintPlan := do
  let plan ← t.constraints.foldlM (addStateUse c resolve) ⟨[], []⟩
  t.actions.foldlM (addAction c resolve) plan

end ConstraintPlan

end Grounder
