import Grounder.Proofs.Code.Precondition
import Grounder.Proofs.Compile.Afresh
import Grounder.Proofs.Constraint.Numbering
import Grounder.Proofs.Template.Interleaving

/-!
# `Grounder.Proofs.Compile.SharedCache`: the cache and the order of rendering are invisible

The units of the actions and of the deferred constraints do not depend on one another, so they may
be rendered at the same time, with one cache for all of them. `CompilesTo` describes a compilation
that does so in some interleaving of their requests. Rendering them one after another, as `compile`
does, is one of the ways (`compilesTo_compile`).

`interleaving_invisible` says that all ways agree: with one another and with rendering the units on
their own, each template loaded afresh. They give the same artifacts or the same error, and they
read as many files.
-/

set_option autoImplicit false

namespace Grounder

open Rendering TemplateCache

/-- A compilation in which the independent units are rendered in some interleaving of their
requests to one cache, with its outcome and the cache after it. -/
inductive CompilesTo (t : Task) (o : CompileOptions) (overrides : Overrides)
    (cache : TemplateCache) : Except CompileError Compilation → TemplateCache → Prop where
  /-- Without a model or a plan there is nothing to render. -/
  | ungrounded {e : GroundingError} :
    CodeSource.ofTask t o = .error e →
    CompilesTo t o overrides cache (.error (.ground e)) cache
  /-- All units are rendered, whether some fail or not. What is left comes after them. -/
  | rendered {g : CodeSource} {results : List (Except CompileError Artifact)}
    {cache' : TemplateCache} :
    CodeSource.ofTask t o = .ok g →
    Pool.Reaches overrides ⟨g.independentUnits, cache⟩ (Pool.finished results cache') →
    CompilesTo t o overrides cache
      ((g.artifacts overrides results cache').1.map fun set => ⟨g.model, g.plan, set⟩)
      (g.artifacts overrides results cache').2

variable {t : Task} {o : CompileOptions} {overrides : Overrides} {cache : TemplateCache}

/-- Rendering the units one after another is one of the interleavings. -/
theorem compilesTo_compile (t : Task) (o : CompileOptions) (overrides : Overrides)
    (cache : TemplateCache) :
    CompilesTo t o overrides cache (compile t o overrides cache).1
      (compile t o overrides cache).2 := by
  rw [compile]
  cases hg : CodeSource.ofTask t o with
  | error e => exact .ungrounded hg
  | ok g => exact .rendered hg (Pool.reaches_runEach g.independentUnits cache)

/-- Every interleaving gives what rendering the units on their own gives. -/
theorem CompilesTo.eq_compileAfresh {outcome : Except CompileError Compilation}
    {cache' : TemplateCache} (hfaithful : Faithful overrides cache)
    (h : CompilesTo t o overrides cache outcome cache') :
    outcome = compileAfresh t o overrides := by
  cases h with
  | ungrounded hg => exact (compileAfresh_of_error overrides hg).symm
  | rendered hg hreaches =>
    obtain ⟨rfl, hfaithful', -⟩ := Pool.finished_of_reaches hfaithful hreaches
    rw [compileAfresh_of_ofTask overrides hg, CodeSource.artifacts_fst _ hfaithful']

/-- After the independent units, the rest of a compilation leaves caches alike. -/
theorem CodeSource.artifacts_snd (g : CodeSource) (results : List (Except CompileError Artifact))
    {cache cache' : TemplateCache} (hfaithful : Faithful overrides cache)
    (hfaithful' : Faithful overrides cache') (h : Alike cache cache') :
    Alike (g.artifacts overrides results cache).2 (g.artifacts overrides results cache').2 := by
  rw [artifacts, artifacts]
  cases results.mapM id with
  | error e => exact h
  | ok units =>
    show Alike (g.componentsUnit.run overrides cache).2 (g.componentsUnit.run overrides cache').2
    rw [run_snd _ hfaithful, run_snd _ hfaithful']
    exact h.requestAll overrides _

/-- Every interleaving leaves a cache that is alike. -/
theorem CompilesTo.alike {outcome₁ outcome₂ : Except CompileError Compilation}
    {cache₁ cache₂ : TemplateCache} (hfaithful : Faithful overrides cache)
    (h₁ : CompilesTo t o overrides cache outcome₁ cache₁)
    (h₂ : CompilesTo t o overrides cache outcome₂ cache₂) : Alike cache₁ cache₂ := by
  cases h₁ with
  | ungrounded hg =>
    cases h₂ with
    | ungrounded _ => exact .refl cache
    | rendered hg' _ => rw [hg] at hg'; cases hg'
  | rendered hg hreaches =>
    cases h₂ with
    | ungrounded hg' => rw [hg] at hg'; cases hg'
    | rendered hg' hreaches' =>
      rw [hg] at hg'
      cases hg'
      -- Both runs have the same results, and have made the requests of all units.
      obtain ⟨rfl, hcache, halike⟩ := Pool.finished_of_reaches hfaithful hreaches
      obtain ⟨rfl, hcache', halike'⟩ := Pool.finished_of_reaches hfaithful hreaches'
      exact CodeSource.artifacts_snd _ _ hcache hcache' (halike.trans halike'.symm)

/-- The first unit that fails on its own decides the error. -/
theorem compileAfresh_of_unit_error {g : CodeSource} (hg : CodeSource.ofTask t o = .ok g)
    {before after : List (Rendering Artifact)} {unit : Rendering Artifact} {e : CompileError}
    (hunits : g.independentUnits = before ++ unit :: after)
    (hbefore : ∀ u ∈ before, ∃ a, u.result overrides = .ok a)
    (hunit : unit.result overrides = .error e) : compileAfresh t o overrides = .error e := by
  rw [compileAfresh_of_ofTask overrides hg, CodeSource.artifactsAfresh, hunits,
    Proofs.Support.mapM_eq_error hbefore hunit]
  rfl

/-- The cache and the order of rendering are invisible. From every cache that requests lead to,
every interleaving of the requests of the independent units can be brought to its end, and gives the
artifacts or the error that the units give on their own, one after another, with each template
loaded afresh. If units fail, the error is that of the first one, in the order of the actions by
position and then of the deferred constraints by number. All interleavings read as many files. -/
theorem interleaving_invisible (t : Task) (o : CompileOptions) (overrides : Overrides)
    (requests : List String) :
    (∀ g, CodeSource.ofTask t o = .ok g → ∀ pool,
      Pool.Reaches overrides ⟨g.independentUnits, afterRequests overrides requests⟩ pool →
      ∃ results cache', Pool.Reaches overrides pool (Pool.finished results cache')) ∧
    (∀ outcome cache', CompilesTo t o overrides (afterRequests overrides requests) outcome cache' →
      outcome = compileAfresh t o overrides ∧
      outcome = (compile t o overrides (afterRequests overrides requests)).1) ∧
    (∀ g, CodeSource.ofTask t o = .ok g → (g.plan.deferred.map (·.id)).Pairwise (· < ·) ∧
      ∀ before unit after e,
        (List.range t.actions.length).map g.actionUnit ++ g.plan.deferred.map g.constraintUnit
          = before ++ unit :: after →
        (∀ u ∈ before, ∃ a, u.result overrides = .ok a) → unit.result overrides = .error e →
        ∀ outcome cache',
          CompilesTo t o overrides (afterRequests overrides requests) outcome cache' →
          outcome = .error e) ∧
    ∀ outcome₁ cache₁ outcome₂ cache₂,
      CompilesTo t o overrides (afterRequests overrides requests) outcome₁ cache₁ →
      CompilesTo t o overrides (afterRequests overrides requests) outcome₂ cache₂ →
      cache₁.diskReads = cache₂.diskReads := by
  have hfaithful := faithful_afterRequests overrides requests
  refine ⟨?_, ?_, ?_, ?_⟩
  · intro g _ pool hreaches
    exact pool.exists_finished (Pool.keeps_of_reaches hfaithful hreaches).faithful
  · intro outcome cache' h
    have hafresh := h.eq_compileAfresh hfaithful
    exact ⟨hafresh, hafresh.trans (compile_fst t o hfaithful).symm⟩
  · intro g hg
    obtain ⟨htask, hplan⟩ := CodeSource.task_and_plan_of_ofTask hg
    refine ⟨?_, ?_⟩
    · exact ConstraintPlan.deferred_ids_ascend hplan
    · intro before unit after e hunits hbefore hunit outcome cache' h
      rw [← htask] at hunits
      rw [h.eq_compileAfresh hfaithful]
      exact compileAfresh_of_unit_error hg hunits hbefore hunit
  · intro outcome₁ cache₁ outcome₂ cache₂ h₁ h₂
    exact (h₁.alike hfaithful h₂).diskReads

/-- An override that opens a slot and never closes it. -/
def unclosedOverride : Overrides := fun name =>
  if name = "holds_unary" then .text "$\x7b" else .absent

/-- The constraint unit of `boardingTask` is rendered before its action unit, which fails at the
override. The error is that of the action unit all the same, and as many files are read as if the
action unit had come first. -/
theorem interleaving_invisible_boarding :
    ∃ outcome cache', CompilesTo boardingTask ⟨.declaration, false⟩ unclosedOverride
        (afterRequests unclosedOverride ["effect"]) outcome cache' ∧
      outcome = .error (.malformedTemplate "holds_unary" (.unclosedSlot 0)) ∧
      cache'.diskReads = (compile boardingTask ⟨.declaration, false⟩ unclosedOverride
        (afterRequests unclosedOverride ["effect"])).2.diskReads := by
  obtain ⟨g, hg, action, constraint, hunits, haction⟩ : ∃ g,
      CodeSource.ofTask boardingTask ⟨.declaration, false⟩ = .ok g ∧ ∃ action constraint,
        (List.range boardingTask.actions.length).map g.actionUnit
          ++ g.plan.deferred.map g.constraintUnit = [] ++ action :: [constraint] ∧
        action.result unclosedOverride
          = .error (.malformedTemplate "holds_unary" (.unclosedSlot 0)) :=
    ⟨_, rfl, _, _, rfl, rfl⟩
  obtain ⟨-, -, herror, hreads⟩ := interleaving_invisible boardingTask ⟨.declaration, false⟩
    unclosedOverride ["effect"]
  have hindependent : g.independentUnits = [action, constraint] := by
    rw [CodeSource.independentUnits, (CodeSource.task_and_plan_of_ofTask hg).1]
    exact hunits
  -- The second unit first, and the first one from the cache that it leaves.
  have hsecond := Pool.reaches_run unclosedOverride [action] [] constraint
    (afterRequests unclosedOverride ["effect"])
  have hreaches := hsecond.trans (Pool.reaches_run _ [] _ action _)
  rw [List.singleton_append, ← hindependent] at hreaches
  have hcompiles := CompilesTo.rendered hg
    (show Pool.Reaches _ _ (Pool.finished [_, _] _) from hreaches)
  refine ⟨_, _, hcompiles, ?_, ?_⟩
  · exact (herror g hg).2 [] action [constraint] _ hunits (by simp) haction _ _ hcompiles
  · exact hreads _ _ _ _ hcompiles (compilesTo_compile _ _ _ _)

end Grounder
