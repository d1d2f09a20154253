import Grounder.Code.ClassName
import Grounder.Code.Statement
import Grounder.Output.Artifact
import Grounder.Text.Quoted

/-!
# `Grounder.Code.Unit`: files of generated code

There is a unit for each action, one for each constraint that is checked during the search, and
one that includes them all.
-/

set_option autoImplicit false

namespace Grounder

/-- What units are made from. The model and the plan need not be those of the task. -/
structure CodeSource where
  task : Task
  model : GroundModel
  plan : ConstraintPlan

namespace CodeSource

/-- The bindings that all units share. -/
def header (g : CodeSource) : Template.Bindings :=
  [("domain", g.model.domain), ("instance", g.model.instanceName)]

/-- The file of the action of that name. -/
def actionUnitName (action : String) : String := "actions/" ++ action ++ ".hxx"

/-- The parameters of an action with their types. -/
def paramsText (a : Action) : String :=
  CodeScope.joined (a.params.map fun p => p.name ++ ": " ++ p.type)

/-- The unit of an action whose precondition uses the constraints with the numbers `ids`. -/
def unitOfAction (g : CodeSource) (a : Action) (ids : List Nat) : Rendering Artifact := do
  let s : CodeScope := ⟨g.model, a⟩
  let preconditions ← s.preconditionCode g.plan ids
  let effects ← s.effectCode
  let content ← .fill "action" (g.header ++
    [("action_name", a.name), ("params_doc", paramsText a), ("class_name", className a.name),
      ("arity", toString a.params.length), ("preconditions", preconditions), ("effects", effects)])
  return ⟨actionUnitName a.name, content⟩

/-- The unit of the action at a position of the task. -/
def actionUnit (g : CodeSource) (position : Nat) : Rendering Artifact :=
  match g.task.actions[position]? with
  | some a => g.unitOfAction a (g.plan.forAction position)
  | none => .fail (.invalidTerm "actions" (.noAction position))

/-- The unit of a constraint. -/
def constraintUnit (g : CodeSource) (c : NumberedUse) : Rendering Artifact := do
  let d := c.constraint
  let content ← .fill "constraint" (g.header ++
    [("origin", c.origin.text), ("name", d.name), ("variables", CodeScope.joined d.vars),
      ("id", toString c.id), ("arity", toString d.vars.length),
      ("runtime_class", d.kind.runtimeClass),
      ("parameters", CodeScope.joined (d.parameters.map Text.Quoted.encode))])
  return ⟨c.unitName, content⟩

/-- The files that the unit of all components includes. -/
def includedUnits (g : CodeSource) : List String :=
  (g.task.actions.map fun a => actionUnitName a.name) ++
    g.plan.deferred.map NumberedUse.unitName

/-- The numbers of the constraints that are checked in every state. -/
def stateConstraintIds (g : CodeSource) : List Nat :=
  (g.plan.deferred.filter fun c => c.origin = .state).map (·.id)

/-- The unit that includes all others. -/
def componentsUnit (g : CodeSource) : Rendering Artifact := do
  let includes := g.includedUnits.map fun path => "#include \"" ++ path ++ "\""
  let content ← .fill "components" (g.header ++
    [("includes", "\n".intercalate includes), ("num_variables", toString g.model.numbering.size),
      ("num_actions", toString g.task.actions.length),
      ("num_constraints", toString g.plan.uses.length),
      ("state_constraints", CodeScope.joined (g.stateConstraintIds.map toString))])
  return ⟨"components.hxx", content⟩

end CodeSource

end Grounder
