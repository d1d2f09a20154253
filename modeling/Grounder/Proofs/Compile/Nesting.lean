import Grounder.Proofs.Code.Agreement
import Grounder.Proofs.Code.Precondition
import Grounder.Proofs.Compile.Builtin
import Grounder.Proofs.Task.Conjuncts

/-!
# `Grounder.Proofs.Compile.Nesting`: how conjunctions are nested does not matter

Grounding does not look at preconditions at all, and planning and rendering look at their conjuncts
only, which are the leaves other than `true`. So what is made of an action is the same for two
actions that differ in how their preconditions are nested (`Action.Renested`), and what is made of
a list of actions is the same for two lists of such actions (`map_of_renested`). Every stage of a
compilation is of this kind.

`nesting_irrelevant` puts the stages together and adds that flattening changes neither what a
formula says nor leaves anything to flatten.
-/

set_option autoImplicit false

namespace Grounder

open Proofs.Support

/-- Actions that differ at most in how the conjunctions of their preconditions are nested and in
where `true` stands in them. -/
structure Action.Renested (a a' : Action) : Prop where
  name : a'.name = a.name
  params : a'.params = a.params
  effects : a'.effects = a.effects
  leaves : a'.precondition.otherLeaves = a.precondition.otherLeaves

/-- Tasks that differ in nothing but the nesting of the preconditions of their actions. -/
structure Task.Renested (t t' : Task) : Prop where
  actions : List.Forall₂ Action.Renested t.actions t'.actions
  rest : t' = { t with actions := t'.actions }

/-- Nesting does not change the conjuncts. -/
theorem Action.Renested.conjuncts {a a' : Action} (h : a.Renested a') :
    a'.precondition.conjuncts = a.precondition.conjuncts := by
  rw [Formula.conjuncts_eq_otherLeaves, Formula.conjuncts_eq_otherLeaves, h.leaves]

/-- What is made of each action alike is made of the actions alike. -/
theorem map_of_renested {α : Type} {f f' : Action → α} {actions actions' : List Action}
    (h : List.Forall₂ Action.Renested actions actions')
    (hf : ∀ a a', a.Renested a' → f' a' = f a) : actions'.map f' = actions.map f := by
  induction h with
  | nil => rfl
  | cons hhead _ ih => rw [List.map_cons, List.map_cons, hf _ _ hhead, ih]

variable {actions actions' : List Action}

/-! ### Grounding and planning -/

/-- The effects have the same targets. -/
theorem Classification.targets_of_renested (h : List.Forall₂ Action.Renested actions actions') :
    targets actions' = targets actions := by
  rw [targets, targets, List.flatMap_def, List.flatMap_def]
  refine congrArg List.flatten (map_of_renested h fun a a' ha => ?_)
  rw [ha.name, ha.effects]

/-- The symbols are classified the same. -/
theorem Classification.ofActions_of_renested (h : List.Forall₂ Action.Renested actions actions')
    (table : SymbolTable) : ofActions actions' table = ofActions actions table := by
  rw [ofActions, ofActions, unknownTarget?, unknownTarget?, targets_of_renested h]

/-- A task is grounded to the same model. -/
theorem GroundModel.build_of_renested {t : Task}
    (h : List.Forall₂ Action.Renested t.actions actions') (order : SymbolOrder) :
    build { t with actions := actions' } order = build t order := by
  rw [build, build]
  simp only [Classification.ofActions_of_renested h]
  rfl

/-- The constraints have the same plan. -/
theorem ConstraintPlan.ofTask_of_renested {t : Task}
    (h : List.Forall₂ Action.Renested t.actions actions') (c : Classification) (resolve : Bool) :
    ofTask { t with actions := actions' } c resolve = ofTask t c resolve := by
  have hchecks : ∀ a a' : Action, a.Renested a' →
      a'.precondition.uses.mapM (checkUse c resolve (.action a'.name)) =
        a.precondition.uses.mapM (checkUse c resolve (.action a.name)) := by
    intro a a' ha
    rw [Formula.uses, Formula.uses, ha.conjuncts, ha.name]
  have hactions := congrArg (·.mapM id) (map_of_renested h hchecks)
  simp only [List.mapM_map, Function.id_comp] at hactions
  rw [ofTask_eq, ofTask_eq, hactions]

namespace CodeSource

/-! ### Rendering -/

/-- The source with other actions. -/
def withActions (g : CodeSource) (actions' : List Action) : CodeSource :=
  { g with task := { g.task with actions := actions' } }

/-- A task has the same source but for its actions. -/
theorem ofTask_of_renested {t : Task} (h : List.Forall₂ Action.Renested t.actions actions')
    (o : CompileOptions) :
    ofTask { t with actions := actions' } o = (ofTask t o).map (·.withActions actions') := by
  rw [ofTask, ofTask, GroundModel.build_of_renested h]
  cases GroundModel.build t o.symbolOrder with
  | error e => rfl
  | ok m =>
    show (ConstraintPlan.ofTask _ m.classification _ >>= _) = Except.map _
      (ConstraintPlan.ofTask t m.classification o.resolveStatics >>= _)
    rw [ConstraintPlan.ofTask_of_renested h]
    cases ConstraintPlan.ofTask t m.classification o.resolveStatics <;> rfl

variable {g : CodeSource}

/-- An action has the same unit. -/
theorem unitOfAction_of_renested {a a' : Action} (h : a.Renested a') (ids : List Nat) :
    (g.withActions actions').unitOfAction a' ids = g.unitOfAction a ids := by
  have hscopes : CodeScope.Agrees ⟨g.model, a⟩ ⟨(g.withActions actions').model, a'⟩ :=
    ⟨rfl, rfl, rfl, h.name, h.params⟩
  exact unitOfAction_eq hscopes h.conjuncts h.effects (fun _ _ => rfl) rfl

/-- The action at a position has the same unit. -/
theorem actionUnit_of_renested (h : List.Forall₂ Action.Renested g.task.actions actions')
    (position : Nat) : (g.withActions actions').actionUnit position = g.actionUnit position := by
  have hunits : ∀ a a' : Action, a.Renested a' →
      (g.withActions actions').unitOfAction a' (g.plan.forAction position) =
        g.unitOfAction a (g.plan.forAction position) :=
    fun a a' ha => unitOfAction_of_renested ha _
  have hunit := congrArg (·[position]?) (map_of_renested h hunits)
  simp only [List.getElem?_map] at hunit
  have htask : (g.withActions actions').task.actions = actions' := rfl
  rw [actionUnit, actionUnit, htask]
  cases ha : g.task.actions[position]? with
  | none =>
    rw [ha, Option.map_none, Option.map_eq_none_iff] at hunit
    rw [hunit]
  | some a =>
    rw [ha, Option.map_some, Option.map_eq_some_iff] at hunit
    obtain ⟨a', ha', hunit⟩ := hunit
    rw [ha']
    exact hunit

/-- The units of the actions and of the deferred constraints are the same. -/
theorem independentUnits_of_renested (h : List.Forall₂ Action.Renested g.task.actions actions') :
    (g.withActions actions').independentUnits = g.independentUnits := by
  have hlength : (g.withActions actions').task.actions.length = g.task.actions.length :=
    h.length_eq.symm
  have hunits : (g.withActions actions').actionUnit = g.actionUnit :=
    funext (actionUnit_of_renested h)
  rw [independentUnits, independentUnits, hlength, hunits]
  rfl

/-- The unit of all components is the same. -/
theorem componentsUnit_of_renested (h : List.Forall₂ Action.Renested g.task.actions actions') :
    (g.withActions actions').componentsUnit = g.componentsUnit := by
  have hlength : (g.withActions actions').task.actions.length = g.task.actions.length :=
    h.length_eq.symm
  have hincluded : (g.withActions actions').includedUnits = g.includedUnits := by
    refine congrArg (· ++ _) (map_of_renested h fun a a' ha => ?_)
    rw [ha.name]
  rw [componentsUnit, componentsUnit, hlength, hincluded]
  rfl

/-- The artifacts are the same. -/
theorem artifacts_of_renested (h : List.Forall₂ Action.Renested g.task.actions actions')
    (overrides : Overrides) (units : List (Except CompileError Artifact)) (cache : TemplateCache) :
    (g.withActions actions').artifacts overrides units cache =
      g.artifacts overrides units cache := by
  rw [artifacts, artifacts, componentsUnit_of_renested h]
  rfl

end CodeSource

/-- A task compiles to the same artifacts. -/
theorem compile_of_renested {t : Task} (h : List.Forall₂ Action.Renested t.actions actions')
    (o : CompileOptions) (overrides : Overrides) (cache : TemplateCache) :
    compile { t with actions := actions' } o overrides cache = compile t o overrides cache := by
  rw [compile, compile, CodeSource.ofTask_of_renested h]
  cases hg : CodeSource.ofTask t o with
  | error e => rfl
  | ok g =>
    obtain ⟨rfl, -⟩ := CodeSource.task_and_plan_of_ofTask hg
    simp only [Except.map, CodeSource.independentUnits_of_renested h,
      CodeSource.artifacts_of_renested h]
    rfl

/-- Tasks that differ only in how the conjunctions of their preconditions are nested and in where
`true` stands in them have the same constraints planned and compile to the same artifacts, or fail
with the same error. A formula holds exactly if all of its conjuncts do, whatever is taken to hold,
and none of its conjuncts is `true` or a conjunction. -/
theorem nesting_irrelevant :
    (∀ t t' : Task, t.Renested t' →
      (∀ c resolve, ConstraintPlan.ofTask t' c resolve = ConstraintPlan.ofTask t c resolve) ∧
      ∀ o overrides cache, compile t' o overrides cache = compile t o overrides cache) ∧
    ∀ f : Formula,
      (∀ v : Formula.TruthAssignment, f.holds v ↔ ∀ g ∈ f.conjuncts, g.holds v) ∧
      ∀ g ∈ f.conjuncts, g ≠ .true ∧ ∀ parts, g ≠ .and parts := by
  refine ⟨?_, fun f => ⟨fun v => f.holds_iff_conjuncts v, ?_⟩⟩
  · rintro t t' ⟨hactions, hrest⟩
    rw [hrest]
    exact ⟨ConstraintPlan.ofTask_of_renested hactions, compile_of_renested hactions⟩
  · intro g hg
    have hconjunct := f.isConjunct_of_mem_conjuncts g hg
    constructor
    · rintro rfl
      exact hconjunct
    · rintro parts rfl
      exact hconjunct

/-- `boardingTask` with its conjuncts side by side, among other `true`s. -/
def flatBoardingTask : Task :=
  { boardingTask with
    actions := [⟨"board", [⟨"?c", "car"⟩],
      .and [.true, .atom "on" [.param "?c"] true, .and [],
        .relation .equal (.param "?c") (.object "a"),
        .constraint ⟨"geq", [], [.param "?c", .object "a"]⟩, .and [.true]],
      [⟨"on", [.param "?c"], none, false, none⟩]⟩] }

/-- Both tasks have the same constraints planned and compile to the same artifacts. -/
theorem nesting_irrelevant_boarding :
    boardingTask.Renested flatBoardingTask ∧
      (∀ c resolve, ConstraintPlan.ofTask flatBoardingTask c resolve =
        ConstraintPlan.ofTask boardingTask c resolve) ∧
      ∃ out, ∀ task ∈ [boardingTask, flatBoardingTask],
        (compile task ⟨.declaration, true⟩ Overrides.none
          (TemplateCache.afterRequests Overrides.none [])).1 = .ok out := by
  have hrenested : boardingTask.Renested flatBoardingTask :=
    ⟨.cons ⟨rfl, rfl, rfl, rfl⟩ .nil, rfl⟩
  obtain ⟨hplan, hcompile⟩ := nesting_irrelevant.1 boardingTask flatBoardingTask hrenested
  obtain ⟨out, hout⟩ := exists_compilation (t := boardingTask) (o := ⟨.declaration, true⟩) rfl []
  refine ⟨hrenested, hplan, out, ?_⟩
  simp only [List.forall_mem_cons, hcompile, hout, List.not_mem_nil, false_implies, implies_true,
    and_self]

end Grounder
