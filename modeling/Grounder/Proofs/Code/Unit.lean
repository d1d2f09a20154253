import Grounder.Compile
import Grounder.Proofs.Support.Except
import Grounder.Proofs.Template.Fill

/-!
# `Grounder.Proofs.Code.Unit`: what the unit of an action is put together from

A run that makes the unit of an action went through the renderings of its precondition and of its
effects, and both stand in the content at the places that the built-in template has for them. The
cache that the run started from does not matter, as long as requests led to it.
-/

set_option autoImplicit false

namespace Grounder

open Template Rendering

namespace CodeSource

/-- The unit of an action has the rendered precondition and the rendered effects in their places. -/
theorem unitOfAction_eq_ok {g : CodeSource} {a : Action} {ids : List Nat} {unit : Artifact} :
    (g.unitOfAction a ids).result Overrides.none = .ok unit ↔
      ∃ preconditions effects,
        ((⟨g.model, a⟩ : CodeScope).preconditionCode g.plan ids).result Overrides.none
          = .ok preconditions ∧
        (⟨g.model, a⟩ : CodeScope).effectCode.result Overrides.none = .ok effects ∧
        unit = ⟨actionUnitName a.name, actionUnitText g.model.domain g.model.instanceName a.name
          (paramsText a) (className a.name) (toString a.params.length) preconditions effects⟩ := by
  simp only [unitOfAction, result_bind_eq_ok, header, List.cons_append, List.nil_append,
    result_fill_action]
  constructor
  · rintro ⟨preconditions, hpre, effects, heff, content, hcontent, h⟩
    refine ⟨preconditions, effects, hpre, heff, ?_⟩
    rw [Except.ok.inj hcontent]
    exact (Except.ok.inj h).symm
  · rintro ⟨preconditions, effects, hpre, heff, rfl⟩
    exact ⟨preconditions, hpre, effects, heff, _, rfl, rfl⟩

/-- The unit of an action is rendered from the action at its position. -/
theorem result_of_actionUnit {g : CodeSource} (requests : List String) {position : Nat}
    {unit : Artifact}
    (h : ((g.actionUnit position).run Overrides.none
      (TemplateCache.afterRequests Overrides.none requests)).1 = .ok unit) :
    ∃ a, g.task.actions[position]? = some a ∧
      (g.unitOfAction a (g.plan.forAction position)).result Overrides.none = .ok unit := by
  have hresult : (g.actionUnit position).result Overrides.none = .ok unit := by
    rw [← run_fst _ (TemplateCache.faithful_afterRequests Overrides.none requests)]
    exact h
  rw [actionUnit] at hresult
  cases ha : g.task.actions[position]? with
  | none => rw [ha] at hresult; cases hresult
  | some a =>
    rw [ha] at hresult
    exact ⟨a, rfl, hresult⟩

/-- Whether the precondition and the effects of the action at a position can be rendered. -/
def rendersAction (g : CodeSource) (position : Nat) : Bool :=
  match g.task.actions[position]? with
  | some a =>
    let s : CodeScope := ⟨g.model, a⟩
    ((s.preconditionCode g.plan (g.plan.forAction position)).result Overrides.none).isOk &&
      (s.effectCode.result Overrides.none).isOk
  | none => false

/-- The unit of an action is made if its precondition and its effects can be rendered. -/
theorem exists_unit_of_rendersAction {g : CodeSource} {position : Nat}
    (h : g.rendersAction position = true) (requests : List String) :
    ∃ unit, ((g.actionUnit position).run Overrides.none
      (TemplateCache.afterRequests Overrides.none requests)).1 = .ok unit := by
  rw [rendersAction] at h
  cases ha : g.task.actions[position]? with
  | none => rw [ha] at h; cases h
  | some a =>
    simp only [ha, Bool.and_eq_true] at h
    obtain ⟨hpre, heff⟩ := h
    cases hpre' : ((⟨g.model, a⟩ : CodeScope).preconditionCode g.plan
      (g.plan.forAction position)).result Overrides.none with
    | error e => rw [hpre'] at hpre; cases hpre
    | ok preconditions =>
      cases heff' : (⟨g.model, a⟩ : CodeScope).effectCode.result Overrides.none with
      | error e => rw [heff'] at heff; cases heff
      | ok effects =>
        have hunit := unitOfAction_eq_ok.2 ⟨preconditions, effects, hpre', heff', rfl⟩
        rw [run_fst _ (TemplateCache.faithful_afterRequests Overrides.none requests), actionUnit,
          ha]
        exact ⟨_, hunit⟩

/-- Units of a task are rendered with the plan of that task. -/
theorem task_and_plan_of_ofTask {t : Task} {o : CompileOptions} {g : CodeSource}
    (h : ofTask t o = .ok g) :
    g.task = t ∧ ConstraintPlan.ofTask t g.model.classification o.resolveStatics = .ok g.plan := by
  rw [ofTask] at h
  obtain ⟨model, -, h⟩ := Proofs.Support.bind_eq_ok.1 h
  obtain ⟨plan, hplan, h⟩ := Proofs.Support.bind_eq_ok.1 h
  cases h
  exact ⟨rfl, hplan⟩

end CodeSource

end Grounder
