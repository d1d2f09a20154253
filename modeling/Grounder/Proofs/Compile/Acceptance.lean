import Grounder.Proofs.Code.References
import Grounder.Proofs.Compile.Linking

/-!
# `Grounder.Proofs.Compile.Acceptance`: when the artifacts of a task are made

With the built-in templates, nothing but actions and facts can keep the artifacts from being made
(`Renders`). Neither the numbers of constraints matter, nor whether they are decided before the
search, so plans of a task can be exchanged (`exists_compilation_iff`).
-/

set_option autoImplicit false

namespace Grounder

open Rendering TemplateCache Proofs.Support

/-- What the artifacts of a task need besides its plan. -/
structure GroundModel.Renders (m : GroundModel) (actions : List Action) : Prop where
  /-- Everything in a precondition refers to something. -/
  preconditions : ∀ a ∈ actions, (⟨m, a⟩ : CodeScope).ResolvesPrecondition
  /-- The effects have statements. -/
  effects : ∀ a ∈ actions, ∃ code,
    (⟨m, a⟩ : CodeScope).effectCode.result Overrides.none = .ok code
  /-- The values of the initial state have texts. -/
  init : ∃ listing, m.initData = .ok listing
  /-- The facts about static symbols have texts. -/
  statics : ∃ listings, m.staticDataUnits = .ok listings

namespace CodeSource

variable {t : Task} {o : CompileOptions} {g : CodeSource}

/-- The numbers that the plan has for an action belong to the constraints of its precondition. -/
theorem numbers_forAction (hg : ofTask t o = .ok g) {position : Nat} {a : Action}
    (ha : t.actions[position]? = some a) :
    List.Forall₂ (CodeScope.Numbers g.plan) (g.plan.forAction position) a.precondition.uses :=
  (ConstraintPlan.forAction_planned (task_and_plan_of_ofTask hg).2 ha).imp fun _ _ =>
    CodeScope.numbers_of_plans

/-- The unit of an action is made if everything in its precondition refers to something and its
effects have statements. -/
theorem exists_actionUnit_iff (hg : ofTask t o = .ok g) {position : Nat} {a : Action}
    (ha : t.actions[position]? = some a) :
    (∃ unit, (g.actionUnit position).result Overrides.none = .ok unit) ↔
      (⟨g.model, a⟩ : CodeScope).ResolvesPrecondition ∧
        ∃ code, (⟨g.model, a⟩ : CodeScope).effectCode.result Overrides.none = .ok code := by
  have hids := numbers_forAction hg ha
  have htask := (task_and_plan_of_ofTask hg).1
  rw [actionUnit, htask, ha]
  constructor
  · rintro ⟨unit, hunit⟩
    obtain ⟨preconditions, effects, hpre, heff, -⟩ := unitOfAction_eq_ok.1 hunit
    exact ⟨CodeScope.resolvesPrecondition_of_code (s := ⟨g.model, a⟩) hids hpre, effects, heff⟩
  · rintro ⟨hresolves, effects, heff⟩
    obtain ⟨preconditions, hpre⟩ :=
      CodeScope.exists_preconditionCode (s := ⟨g.model, a⟩) hids hresolves
    exact ⟨_, unitOfAction_eq_ok.2 ⟨preconditions, effects, hpre, heff, rfl⟩⟩

/-- The units of all actions are made if everything in the preconditions refers to something and
all effects have statements. -/
theorem exists_actionUnits_iff (hg : ofTask t o = .ok g) :
    (∀ position < t.actions.length,
        ∃ unit, (g.actionUnit position).result Overrides.none = .ok unit) ↔
      ∀ a ∈ t.actions, (⟨g.model, a⟩ : CodeScope).ResolvesPrecondition ∧
        ∃ code, (⟨g.model, a⟩ : CodeScope).effectCode.result Overrides.none = .ok code := by
  rw [List.forall_mem_iff_forall_getElem]
  refine forall₂_congr fun position hposition => ?_
  exact exists_actionUnit_iff hg (List.getElem?_eq_getElem hposition)

/-- All artifacts are made if the actions and the facts of the task allow it. -/
theorem exists_artifactsAfresh_iff (hg : ofTask t o = .ok g) :
    (∃ set, g.artifactsAfresh Overrides.none = .ok set) ↔ g.model.Renders t.actions := by
  have htask := (task_and_plan_of_ofTask hg).1
  constructor
  · rintro ⟨set, hset⟩
    have hactions := (exists_actionUnits_iff hg).1 fun position hposition => by
      have hmem : g.actionUnit position ∈ g.independentUnits :=
        List.mem_append_left _ (List.mem_map_of_mem (List.mem_range.2 (htask ▸ hposition)))
      obtain ⟨unit, -, hunit⟩ := exists_unit_mem hset hmem
      exact ⟨unit, hunit⟩
    obtain ⟨-, -, listings, -, -, hlistings, -⟩ := artifactsAfresh_eq_ok.1 hset
    obtain ⟨initData, staticData, hinit, hstatic, -⟩ := listings_eq_ok.1 hlistings
    exact ⟨fun a ha => (hactions a ha).1, fun a ha => (hactions a ha).2, ⟨_, hinit⟩, _, hstatic⟩
  · rintro ⟨hpreconditions, heffects, ⟨initData, hinit⟩, staticData, hstatic⟩
    have hactions := (exists_actionUnits_iff hg).2 fun a ha => ⟨hpreconditions a ha, heffects a ha⟩
    obtain ⟨units, hunits⟩ : ∃ units,
        g.independentUnits.mapM (result Overrides.none) = .ok units := by
      refine exists_mapM_eq_ok fun unit hunit => ?_
      rcases List.mem_append.1 hunit with hunit | hunit
      · obtain ⟨position, hposition, rfl⟩ := List.mem_map.1 hunit
        exact hactions position (htask ▸ List.mem_range.1 hposition)
      · obtain ⟨c, -, rfl⟩ := List.mem_map.1 hunit
        exact ⟨_, g.result_constraintUnit c⟩
    exact ⟨_, artifactsAfresh_eq_ok.2 ⟨units, _, _, hunits, g.result_componentsUnit,
      listings_eq_ok.2 ⟨initData, staticData, hinit, hstatic, rfl⟩, rfl⟩⟩

end CodeSource

/-- A task compiles with the built-in templates if it has a model and a plan, and its actions and
facts allow the artifacts to be made. -/
theorem exists_compilation_iff {t : Task} {o : CompileOptions} (requests : List String) :
    (∃ out, (compile t o Overrides.none (afterRequests Overrides.none requests)).1 = .ok out) ↔
      ∃ g, CodeSource.ofTask t o = .ok g ∧ g.model.Renders t.actions := by
  rw [compile_fst t o (faithful_afterRequests Overrides.none requests)]
  constructor
  · rintro ⟨out, hout⟩
    obtain ⟨g, hg, -, -, hset⟩ := compileAfresh_eq_ok.1 hout
    exact ⟨g, hg, (CodeSource.exists_artifactsAfresh_iff hg).1 ⟨_, hset⟩⟩
  · rintro ⟨g, hg, hrenders⟩
    obtain ⟨set, hset⟩ := (CodeSource.exists_artifactsAfresh_iff hg).2 hrenders
    exact ⟨⟨g.model, g.plan, set⟩, compileAfresh_eq_ok.2 ⟨g, hg, rfl, rfl, hset⟩⟩

end Grounder
