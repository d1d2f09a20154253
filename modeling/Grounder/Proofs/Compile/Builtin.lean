import Grounder.Proofs.Code.Includes
import Grounder.Proofs.Code.InitListing
import Grounder.Proofs.Code.Unit
import Grounder.Proofs.Compile.Afresh

/-!
# `Grounder.Proofs.Compile.Builtin`: compiling with the built-in templates

With the built-in templates, the unit of a constraint and the unit of all components cannot fail,
and their contents are known (`result_constraintUnit`, `result_componentsUnit`). So a task compiles
if its preconditions and effects can be rendered and its listings can be made, which `compiles`
decides (`exists_compilation`).
-/

set_option autoImplicit false

namespace Grounder

open Template Rendering TemplateCache Proofs.Support

namespace CodeSource

variable {g : CodeSource}

/-- The unit of a constraint. -/
def constraintUnitContent (g : CodeSource) (c : NumberedUse) : String :=
  constraintUnitText g.model.domain g.model.instanceName c.origin.text c.constraint.name
    (CodeScope.joined c.constraint.vars) (toString c.id) (toString c.constraint.vars.length)
    c.constraint.kind.runtimeClass
    (CodeScope.joined (c.constraint.parameters.map Text.Quoted.encode))

/-- The unit of a constraint is always made. -/
theorem result_constraintUnit (g : CodeSource) (c : NumberedUse) :
    (g.constraintUnit c).result Overrides.none = .ok ⟨c.unitName, g.constraintUnitContent c⟩ := by
  simp only [constraintUnit, header, List.cons_append, List.nil_append, result_bind,
    result_fill_constraint]
  rfl

/-- The unit of all components, with a line for each file that it includes. -/
def componentsUnitContent (g : CodeSource) (includes : List String) (stateIds : List Nat) :
    String :=
  componentsUnitText g.model.domain g.model.instanceName
    ("\n".intercalate (includes.map includeLine))
    (toString g.model.numbering.size) (toString g.task.actions.length)
    (toString g.plan.uses.length) (CodeScope.joined (stateIds.map toString))

/-- The unit of all components is always made. -/
theorem result_componentsUnit (g : CodeSource) :
    g.componentsUnit.result Overrides.none
      = .ok ⟨"components.hxx", g.componentsUnitContent g.includedUnits g.stateConstraintIds⟩ := by
  simp only [componentsUnit, header, List.cons_append, List.nil_append, result_bind,
    result_fill_components]
  rfl

/-- Whether all preconditions and effects can be rendered and all listings can be made. -/
def rendersAll (g : CodeSource) : Bool :=
  ((List.range g.task.actions.length).all g.rendersAction) &&
    (g.model.init.facts.all fun fact => (g.model.valueCode "init.data" fact.2).isOk) &&
    g.model.staticDataUnits.isOk

/-- The listings are made if the values of the initial state and the static facts have texts. -/
theorem exists_listings
    (hvalues : ∀ fact ∈ g.model.init.facts, (g.model.valueCode "init.data" fact.2).isOk = true)
    (hstatic : g.model.staticDataUnits.isOk = true) : ∃ listings, g.listings = .ok listings := by
  obtain ⟨staticData, hstatic⟩ := exists_eq_ok hstatic
  have hinit := GroundModel.initData_eq (m := g.model) fun entry hentry => by
    obtain ⟨v, hfact, -⟩ := InitialState.mem_facts_of_mem_explicitValues hentry
    exact exists_eq_ok (hvalues _ hfact)
  exact ⟨_, bind_eq_ok.2 ⟨_, hinit, bind_eq_ok.2 ⟨staticData, hstatic, rfl⟩⟩⟩

/-- All artifacts are made if nothing fails. -/
theorem exists_artifactsAfresh (h : g.rendersAll = true) :
    ∃ set, g.artifactsAfresh Overrides.none = .ok set := by
  simp only [rendersAll, Bool.and_eq_true, List.all_eq_true] at h
  obtain ⟨⟨hactions, hvalues⟩, hstatic⟩ := h
  obtain ⟨listings, hlistings⟩ := exists_listings hvalues hstatic
  obtain ⟨units, hunits⟩ : ∃ units,
      g.independentUnits.mapM (result Overrides.none) = .ok units := by
    refine exists_mapM_eq_ok fun unit hunit => ?_
    rcases List.mem_append.1 hunit with hunit | hunit
    · obtain ⟨position, hposition, rfl⟩ := List.mem_map.1 hunit
      have hunit := exists_unit_of_rendersAction (hactions position hposition) []
      rw [run_fst _ (faithful_afterRequests Overrides.none [])] at hunit
      exact hunit
    · obtain ⟨c, -, rfl⟩ := List.mem_map.1 hunit
      exact ⟨_, g.result_constraintUnit c⟩
  exact ⟨_, artifactsAfresh_eq_ok.2 ⟨units, _, listings, hunits, g.result_componentsUnit,
    hlistings, rfl⟩⟩

end CodeSource

/-- Whether a task compiles. -/
def compiles (t : Task) (o : CompileOptions) : Bool :=
  match CodeSource.ofTask t o with
  | .ok g => g.rendersAll
  | .error _ => false

/-- A task compiles if nothing fails, from every cache that requests lead to. -/
theorem exists_compilation {t : Task} {o : CompileOptions} (h : compiles t o = true)
    (requests : List String) :
    ∃ out, (compile t o Overrides.none (afterRequests Overrides.none requests)).1 = .ok out := by
  rw [compile_fst t o (faithful_afterRequests Overrides.none requests)]
  rw [compiles] at h
  cases hg : CodeSource.ofTask t o with
  | error e => rw [hg] at h; cases h
  | ok g =>
    rw [hg] at h
    obtain ⟨set, hset⟩ := CodeSource.exists_artifactsAfresh h
    rw [compileAfresh_of_ofTask _ hg, hset]
    exact ⟨_, rfl⟩

end Grounder
