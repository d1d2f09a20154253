import Grounder.Compile
import Grounder.Proofs.Code.Agreement

/-!
# `Grounder.Proofs.Code.HandleFree`: code does not refer to handles

Generated code names symbols and objects by their ids and constraints by their numbers. It leaves
the handles of state variables to the listings, so a model with another numbering renders to the
same code. The only thing that a unit says about the numbering is how many handles there are
(`componentsUnit_withNumbering`).
-/

set_option autoImplicit false

namespace Grounder

/-- The model with other handles. -/
def GroundModel.withNumbering (m : GroundModel) (numbering : VariableNumbering) : GroundModel :=
  { m with numbering }

namespace CodeSource

/-- The source over the model with other handles. -/
def withNumbering (g : CodeSource) (numbering : VariableNumbering) : CodeSource :=
  { g with model := g.model.withNumbering numbering }

variable (g : CodeSource) (numbering : VariableNumbering)

/-- The unit of an action is the same. -/
theorem unitOfAction_withNumbering (a : Action) (ids : List Nat) :
    (g.withNumbering numbering).unitOfAction a ids = g.unitOfAction a ids := by
  have hscopes : CodeScope.Agrees ⟨g.model, a⟩ ⟨(g.withNumbering numbering).model, a⟩ :=
    ⟨rfl, rfl, rfl, rfl, rfl⟩
  exact unitOfAction_eq hscopes rfl rfl (fun _ _ => rfl) rfl

/-- The units of the actions and of the deferred constraints are the same. -/
theorem independentUnits_withNumbering :
    (g.withNumbering numbering).independentUnits = g.independentUnits := by
  have haction : (g.withNumbering numbering).actionUnit = g.actionUnit := by
    funext position
    have htask : (g.withNumbering numbering).task = g.task := rfl
    rw [actionUnit, actionUnit, htask]
    cases g.task.actions[position]? with
    | none => rfl
    | some a => exact g.unitOfAction_withNumbering numbering a _
  rw [independentUnits, independentUnits, haction]
  rfl

/-- The unit of all components is the same if there are as many handles. -/
theorem componentsUnit_withNumbering (h : numbering.size = g.model.numbering.size) :
    (g.withNumbering numbering).componentsUnit = g.componentsUnit := by
  have hsize : (g.withNumbering numbering).model.numbering.size = g.model.numbering.size := h
  rw [componentsUnit, componentsUnit, hsize]
  rfl

end CodeSource

end Grounder
