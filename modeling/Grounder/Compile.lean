import Grounder.Code.Listing
import Grounder.Code.Unit

/-!
# `Grounder.Compile`: from a task to its artifacts

Grounding and planning come first. Then the units of the actions and of the deferred constraints
are rendered, each on its own, and the first that failed in this order decides the error. What is
left are the unit of all components and the listings.
-/

set_option autoImplicit false

namespace Grounder

/-- What is made of a task. -/
structure Compilation where
  model : GroundModel
  plan : ConstraintPlan
  artifacts : ArtifactSet

/-- How a task is compiled. -/
structure CompileOptions where
  symbolOrder : SymbolOrder
  /-- Whether external constraints that read no fluent symbol are decided before the search. -/
  resolveStatics : Bool
  deriving DecidableEq, Repr

/-- The source of the units of a task. -/
def CodeSource.ofTask (t : Task) (o : CompileOptions) : Except GroundingError CodeSource := do
  let model ← GroundModel.build t o.symbolOrder
  let plan ← ConstraintPlan.ofTask t model.classification o.resolveStatics
  return ⟨t, model, plan⟩

namespace CodeSource

/-- The renderings of the units that do not depend on one another: those of the actions by
position, then those of the deferred constraints by number. -/
def independentUnits (g : CodeSource) : List (Rendering Artifact) :=
  ((List.range g.task.actions.length).map g.actionUnit) ++ g.plan.deferred.map g.constraintUnit

/-- The data files. -/
def listings (g : CodeSource) : Except CompileError (List Artifact) := do
  let initData ← g.model.initData
  let staticData ← g.model.staticDataUnits
  return [g.model.symbolsData, g.model.variablesData, g.model.objectsData, initData,
    g.plan.staticConstraintsData] ++ staticData

/-- All artifacts, from the results of the independent units. -/
def artifacts (g : CodeSource) (overrides : Overrides) (units : List (Except CompileError Artifact))
    (cache : TemplateCache) : Except CompileError ArtifactSet × TemplateCache :=
  match units.mapM id with
  | .error e => (.error e, cache)
  | .ok units =>
    let (components, cache') := g.componentsUnit.run overrides cache
    (do
      let components ← components
      let listings ← g.listings
      return .ofList (units ++ components :: listings), cache')

end CodeSource

/-- The artifacts of a task, and the cache after it. -/
def compile (t : Task) (o : CompileOptions) (overrides : Overrides) (cache : TemplateCache) :
    Except CompileError Compilation × TemplateCache :=
  match CodeSource.ofTask t o with
  | .error e => (.error (.ground e), cache)
  | .ok g =>
    let (units, cache') := Rendering.runEach overrides g.independentUnits cache
    let (artifacts, cache'') := g.artifacts overrides units cache'
    (artifacts.map fun set => ⟨g.model, g.plan, set⟩, cache'')

/-- The counts that a run reports. -/
structure CompilationSummary where
  domain : String
  instanceName : String
  symbols : Nat
  fluents : Nat
  statics : Nat
  objects : Nat
  stateVariables : Nat
  initialAtoms : Nat
  constraints : Nat
  staticConstraints : Nat
  artifacts : Nat
  deriving DecidableEq, Repr

def Compilation.summary (out : Compilation) : CompilationSummary :=
  { domain := out.model.domain
    instanceName := out.model.instanceName
    symbols := out.model.symbols.symbols.length
    fluents := out.model.classification.fluents.length
    statics := out.model.classification.statics.length
    objects := out.model.objects.size
    stateVariables := out.model.numbering.size
    initialAtoms := out.model.init.atomCount
    constraints := out.plan.uses.length
    staticConstraints := out.plan.statics.length
    artifacts := out.artifacts.size }

end Grounder
