import Grounder.Compile
import Grounder.Proofs.GroundModel
import Grounder.Proofs.Support.Except
import Grounder.Proofs.Template.Rendering

/-!
# `Grounder.Proofs.Compile.Afresh`: compiling without a cache

`compileAfresh` renders one unit after another and loads every template afresh, so no cache enters
into it, and it stops at the first unit that fails. `compile_fst` says that this is what compiling
gives, from every cache that requests lead to.

What a run without a failure went through can be taken apart, up to the stages of grounding
(`exists_source_of_compile`, `artifactsAfresh_eq_ok`, `GroundModel.build_eq_ok`).
-/

set_option autoImplicit false

namespace Grounder

open Rendering TemplateCache Proofs.Support

/-- The source of a task has the model of the task. -/
theorem CodeSource.build_of_ofTask {t : Task} {o : CompileOptions} {g : CodeSource}
    (h : ofTask t o = .ok g) : GroundModel.build t o.symbolOrder = .ok g.model := by
  obtain ⟨model, hmodel, h⟩ := bind_eq_ok.1 h
  obtain ⟨plan, -, h⟩ := bind_eq_ok.1 h
  cases h
  exact hmodel

/-- The source of a task keeps the names of the domain and of the instance. -/
theorem CodeSource.names_of_ofTask {t : Task} {o : CompileOptions} {g : CodeSource}
    (h : ofTask t o = .ok g) :
    g.model.domain = t.domain ∧ g.model.instanceName = t.instanceName := by
  obtain ⟨-, table, classification, numbering, init, -, -, -, -, heq⟩ :=
    GroundModel.build_eq_ok.1 (build_of_ofTask h)
  rw [heq]
  exact ⟨rfl, rfl⟩

namespace CodeSource

/-- All artifacts, where every template is loaded afresh. -/
def artifactsAfresh (g : CodeSource) (overrides : Overrides) : Except CompileError ArtifactSet := do
  let units ← g.independentUnits.mapM (result overrides)
  let components ← g.componentsUnit.result overrides
  let listings ← g.listings
  return .ofList (units ++ components :: listings)

/-- The artifacts from the results of the independent units. -/
theorem artifacts_fst (g : CodeSource) {overrides : Overrides} {cache : TemplateCache}
    (h : Faithful overrides cache) :
    (g.artifacts overrides (g.independentUnits.map (result overrides)) cache).1
      = g.artifactsAfresh overrides := by
  have hunits : (g.independentUnits.map (result overrides)).mapM id
      = g.independentUnits.mapM (result overrides) := List.mapM_map
  rw [artifacts, artifactsAfresh, hunits]
  cases g.independentUnits.mapM (result overrides) with
  | error e => rfl
  | ok units =>
    rw [← run_fst g.componentsUnit h]
    rfl

/-- What a run that makes all data files went through. -/
theorem listings_eq_ok {g : CodeSource} {listings : List Artifact} :
    g.listings = .ok listings ↔
      ∃ initData staticData, g.model.initData = .ok initData ∧
        g.model.staticDataUnits = .ok staticData ∧
        listings = [g.model.symbolsData, g.model.variablesData, g.model.objectsData, initData,
          g.plan.staticConstraintsData] ++ staticData := by
  constructor
  · intro h
    obtain ⟨initData, hinit, h⟩ := bind_eq_ok.1 h
    obtain ⟨staticData, hstatic, h⟩ := bind_eq_ok.1 h
    exact ⟨initData, staticData, hinit, hstatic, (Except.ok.inj h).symm⟩
  · rintro ⟨initData, staticData, hinit, hstatic, rfl⟩
    exact bind_eq_ok.2 ⟨initData, hinit, bind_eq_ok.2 ⟨staticData, hstatic, rfl⟩⟩

/-- What a run that makes all artifacts went through. -/
theorem artifactsAfresh_eq_ok {g : CodeSource} {overrides : Overrides} {set : ArtifactSet} :
    g.artifactsAfresh overrides = .ok set ↔
      ∃ units components listings, g.independentUnits.mapM (result overrides) = .ok units ∧
        g.componentsUnit.result overrides = .ok components ∧ g.listings = .ok listings ∧
        set = .ofList (units ++ components :: listings) := by
  constructor
  · intro h
    obtain ⟨units, hunits, h⟩ := bind_eq_ok.1 h
    obtain ⟨components, hcomponents, h⟩ := bind_eq_ok.1 h
    obtain ⟨listings, hlistings, h⟩ := bind_eq_ok.1 h
    cases h
    exact ⟨units, components, listings, hunits, hcomponents, hlistings, rfl⟩
  · rintro ⟨units, components, listings, hunits, hcomponents, hlistings, rfl⟩
    exact bind_eq_ok.2 ⟨units, hunits, bind_eq_ok.2 ⟨components, hcomponents,
      bind_eq_ok.2 ⟨listings, hlistings, rfl⟩⟩⟩

end CodeSource

/-- What is made of a task, where every template is loaded afresh. -/
def compileAfresh (t : Task) (o : CompileOptions) (overrides : Overrides) :
    Except CompileError Compilation := do
  let g ← (CodeSource.ofTask t o).mapError .ground
  let set ← g.artifactsAfresh overrides
  return ⟨g.model, g.plan, set⟩

/-- A compilation gives nothing else than its artifacts with the model and the plan. -/
theorem compileAfresh_of_ofTask {t : Task} {o : CompileOptions} {g : CodeSource}
    (overrides : Overrides) (h : CodeSource.ofTask t o = .ok g) :
    compileAfresh t o overrides
      = (g.artifactsAfresh overrides).map fun set => ⟨g.model, g.plan, set⟩ := by
  rw [compileAfresh, h]
  show (g.artifactsAfresh overrides >>= fun set => pure _) = _
  cases g.artifactsAfresh overrides <;> rfl

/-- Without a model or a plan, nothing is compiled. -/
theorem compileAfresh_of_error {t : Task} {o : CompileOptions} {e : GroundingError}
    (overrides : Overrides) (h : CodeSource.ofTask t o = .error e) :
    compileAfresh t o overrides = .error (.ground e) := by
  rw [compileAfresh, h]
  rfl

/-- What a compilation without a failure goes through. -/
theorem compileAfresh_eq_ok {t : Task} {o : CompileOptions} {overrides : Overrides}
    {out : Compilation} :
    compileAfresh t o overrides = .ok out ↔
      ∃ g, CodeSource.ofTask t o = .ok g ∧ out.model = g.model ∧ out.plan = g.plan ∧
        g.artifactsAfresh overrides = .ok out.artifacts := by
  cases hg : CodeSource.ofTask t o with
  | error e => simp [compileAfresh_of_error overrides hg]
  | ok g =>
    rw [compileAfresh_of_ofTask overrides hg, map_eq_ok]
    constructor
    · rintro ⟨set, hset, rfl⟩
      exact ⟨g, rfl, rfl, rfl, hset⟩
    · rintro ⟨_, hsame, hmodel, hplan, hset⟩
      cases hsame
      refine ⟨out.artifacts, hset, ?_⟩
      rw [← hmodel, ← hplan]

/-- The results of renderings, one after another, are those with each template loaded afresh. -/
theorem Rendering.runEach_fst {α : Type} (units : List (Rendering α)) {overrides : Overrides}
    {cache : TemplateCache} (h : Faithful overrides cache) :
    (runEach overrides units cache).1 = units.map (result overrides) ∧
      Faithful overrides (runEach overrides units cache).2 := by
  induction units generalizing cache with
  | nil => exact ⟨rfl, h⟩
  | cons r rest ih =>
    obtain ⟨hresults, hfaithful⟩ := ih (faithful_run r h)
    refine ⟨?_, hfaithful⟩
    rw [List.map_cons, ← run_fst r h, ← hresults]
    rfl

/-- From a faithful cache, what is compiled does not depend on the cache. -/
theorem compile_fst (t : Task) (o : CompileOptions) {overrides : Overrides}
    {cache : TemplateCache} (h : Faithful overrides cache) :
    (compile t o overrides cache).1 = compileAfresh t o overrides := by
  rw [compile]
  cases hg : CodeSource.ofTask t o with
  | error e => exact (compileAfresh_of_error overrides hg).symm
  | ok g =>
    obtain ⟨hresults, hfaithful⟩ := runEach_fst g.independentUnits h
    rw [compileAfresh_of_ofTask overrides hg, ← g.artifacts_fst hfaithful, ← hresults]

/-- What is compiled without a failure has a source, whose artifacts are made afresh. -/
theorem exists_source_of_compile {t : Task} {o : CompileOptions} {overrides : Overrides}
    {cache : TemplateCache} {out : Compilation} (h : Faithful overrides cache)
    (hout : (compile t o overrides cache).1 = .ok out) :
    ∃ g, CodeSource.ofTask t o = .ok g ∧ out.model = g.model ∧ out.plan = g.plan ∧
      g.artifactsAfresh overrides = .ok out.artifacts := by
  rw [compile_fst t o h] at hout
  exact compileAfresh_eq_ok.1 hout

end Grounder
