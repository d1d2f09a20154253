import Grounder.Proofs.Code.Errors
import Grounder.Proofs.Code.StaticListing
import Grounder.Proofs.Compile.Acceptance
import Grounder.Proofs.Compile.InitialFacts

/-!
# `Grounder.Proofs.Compile.Errors`: how a compilation fails

A compilation with the built-in templates goes through grounding, planning, the units of the actions
and of the constraints, the unit of all components, and the listings. Only the first three kinds of
stages can fail. What the listings look up was checked while grounding: every value and every
argument of the initial state is an integer, or an object of a type, and all objects of types have
ids.

`CompileError.Arises` lists the errors, each with the stage and the part of the task that it comes
from. `no_failure_after_action_units` says that there are no others, and that a task compiles exactly
when these stages succeed.
-/

set_option autoImplicit false

namespace Grounder

open Rendering TemplateCache Proofs.Support

/-! ### Listings -/

namespace GroundModel

variable {t : Task} {order : SymbolOrder} {m : GroundModel}

/-- A value that a symbol of a grounded task takes has a text in every listing. -/
theorem exists_valueCode (h : build t order = .ok m) (unit : String) {codomain : Option String}
    {value : FactValue} (hvalue : InitialState.ValueBelongs m.symbols codomain value) :
    ∃ code, m.valueCode unit value = .ok code := by
  cases codomain with
  | none =>
    obtain rfl : value = .bool true := hvalue
    exact ⟨_, rfl⟩
  | some type =>
    rw [InitialState.ValueBelongs] at hvalue
    split at hvalue
    · obtain ⟨n, rfl⟩ := hvalue
      exact ⟨_, rfl⟩
    · obtain ⟨name, listing, rfl, hlisting, hname⟩ := hvalue
      obtain ⟨id, hid⟩ := exists_id?_of_listed h hlisting hname
      rw [valueCode, nameCode, hid]
      exact ⟨_, rfl⟩

/-- The listing of the initial values of a grounded task is made. -/
theorem exists_initData (h : build t order = .ok m) : ∃ listing, m.initData = .ok listing := by
  refine ⟨_, initData_eq fun entry hentry => ?_⟩
  obtain ⟨v, hfact, -⟩ := InitialState.mem_facts_of_mem_explicitValues hentry
  have htable := (records_of_build h).1.1
  obtain ⟨a, ha, hmem⟩ := (InitialState.mem_facts (htable.nodup (nodup_names h))).1 hfact
  -- The extension belongs to a declared symbol, and its entries fit this symbol.
  have hne := ne_equality_of_get? h ha
  obtain ⟨s, hs, hname⟩ : ∃ s ∈ m.symbols.symbols, s.name = v.symbol := by
    obtain ⟨before, after, hassignments, -⟩ := List.lookup_eq_some_iff.1 ha
    have hlisted : v.symbol ∈ m.init.assignments.map Prod.fst := by
      rw [hassignments]
      simp
    rw [htable.names] at hlisted
    obtain ⟨s, hs, hname⟩ := List.mem_map.1 hlisted
    exact ⟨s, List.mem_of_mem_filter hs, hname⟩
  rw [← hname] at ha hne
  obtain ⟨a', ha', -, hfits⟩ := exists_extension h hs hne
  rw [ha] at ha'
  cases ha'
  exact exists_valueCode h "init.data" (hfits _ hmem).value

end GroundModel

/-! ### Plans -/

/-- A use of a constraint in every state, or in the precondition of an action. -/
def Task.UsesConstraint (t : Task) (use : ConstraintUse) : Prop :=
  use ∈ t.constraints ∨ ∃ a ∈ t.actions, use ∈ a.precondition.uses

namespace ConstraintPlan

/-- The errors that report a use of a constraint which does not fit the catalog. -/
inductive Faults (t : Task) : GroundingError → Prop where
  /-- A parameter in a constraint on states. -/
  | unknownParameter {use : ConstraintUse} {param : String} :
    use ∈ t.constraints → Term.firstParamAmong? use.args = some param →
    Faults t (.unknownParameter stateScope param)
  /-- A name that is not in the catalog. -/
  | unsupported {use : ConstraintUse} :
    t.UsesConstraint use → ConstraintKind.ofName? use.name = none →
    Faults t (.unsupportedConstraint use.name)
  /-- Parameters or variables that do not fit the kind. -/
  | invalid {use : ConstraintUse} {kind : ConstraintKind} {fault : ConstraintFault} :
    t.UsesConstraint use → ConstraintKind.ofName? use.name = some kind →
    kind.fault? use.parameters (Term.texts use.args) = some fault →
    Faults t (.invalidConstraint use.name fault)

variable {t : Task} {c : Classification} {resolve : Bool} {e : GroundingError}

/-- The check of a use fails if the use does not fit the catalog. -/
theorem faults_of_checkUse {origin : ConstraintOrigin} {use : ConstraintUse}
    (huse : t.UsesConstraint use) (h : checkUse c resolve origin use = .error e) :
    Faults t e := by
  rcases bind_eq_error.1 h with h | ⟨d, -, h⟩
  · rw [CatalogConstraint.make] at h
    cases hkind : ConstraintKind.ofName? use.name with
    | none =>
      rw [hkind] at h
      cases h
      exact .unsupported huse hkind
    | some kind =>
      rw [hkind] at h
      cases hfault : kind.fault? use.parameters (Term.texts use.args) with
      | none =>
        simp only [hfault] at h
        cases h
      | some fault =>
        simp only [hfault] at h
        cases h
        exact .invalid huse hkind hfault
  · cases h

/-- A task without a plan has a use that does not fit the catalog. -/
theorem faults_of_ofTask (h : ofTask t c resolve = .error e) : Faults t e := by
  rw [ofTask_eq] at h
  rcases bind_eq_error.1 h with h | ⟨state, -, h⟩
  · obtain ⟨use, huse, h⟩ := exists_of_mapM_eq_error h
    rw [checkStateUse] at h
    split at h
    · rename_i param hparam
      cases h
      exact .unknownParameter huse hparam
    · exact faults_of_checkUse (Or.inl huse) h
  rcases bind_eq_error.1 h with h | ⟨parts, -, h⟩
  · obtain ⟨a, ha, h⟩ := exists_of_mapM_eq_error h
    obtain ⟨use, huse, h⟩ := exists_of_mapM_eq_error h
    exact faults_of_checkUse (Or.inr ⟨a, ha, huse⟩) h
  · cases h

end ConstraintPlan

/-! ### Compilations -/

namespace CodeSource

variable {t : Task} {o : CompileOptions} {g : CodeSource}

/-- A task has a source exactly when it is grounded and its constraints are planned. -/
theorem ofTask_eq_ok : ofTask t o = .ok g ↔ ∃ m plan,
    GroundModel.build t o.symbolOrder = .ok m ∧
      ConstraintPlan.ofTask t m.classification o.resolveStatics = .ok plan ∧ g = ⟨t, m, plan⟩ := by
  constructor
  · intro h
    obtain ⟨m, hm, h⟩ := bind_eq_ok.1 h
    obtain ⟨plan, hplan, h⟩ := bind_eq_ok.1 h
    exact ⟨m, plan, hm, hplan, (Except.ok.inj h).symm⟩
  · rintro ⟨m, plan, hm, hplan, rfl⟩
    exact bind_eq_ok.2 ⟨m, hm, bind_eq_ok.2 ⟨plan, hplan, rfl⟩⟩

/-- Of a task with a source, the artifacts are made exactly when the units of the actions are. -/
theorem exists_artifactsAfresh_iff_units (hg : ofTask t o = .ok g) :
    (∃ set, g.artifactsAfresh Overrides.none = .ok set) ↔
      ∀ position < t.actions.length,
        ∃ unit, (g.actionUnit position).result Overrides.none = .ok unit := by
  have hbuild := build_of_ofTask hg
  obtain ⟨listings, hlistings, -⟩ := GroundModel.exists_staticDataUnits hbuild
  -- The unit of an action is made of the code of its precondition and of its effects.
  rw [exists_artifactsAfresh_iff hg, exists_actionUnits_iff hg]
  constructor
  · intro h a ha
    exact ⟨h.preconditions a ha, h.effects a ha⟩
  · intro h
    exact ⟨fun a ha => (h a ha).1, fun a ha => (h a ha).2, GroundModel.exists_initData hbuild,
      _, hlistings⟩

/-- Where the artifacts are not made, something in an action has no code. -/
theorem faults_of_artifactsAfresh (hg : ofTask t o = .ok g) {e : CompileError}
    (h : g.artifactsAfresh Overrides.none = .error e) :
    ∃ a ∈ t.actions, (⟨g.model, a⟩ : CodeScope).Faults e := by
  have htask := (task_and_plan_of_ofTask hg).1
  rcases bind_eq_error.1 h with h | ⟨units, -, h⟩
  · -- The first unit that fails is not that of a constraint.
    obtain ⟨unit, hunit, h⟩ := exists_of_mapM_eq_error h
    rcases List.mem_append.1 hunit with hunit | hunit
    · obtain ⟨position, hposition, rfl⟩ := List.mem_map.1 hunit
      rw [List.mem_range, htask] at hposition
      have ha : t.actions[position]? = some t.actions[position] :=
        List.getElem?_eq_getElem hposition
      rw [actionUnit, htask, ha] at h
      exact ⟨_, List.getElem_mem hposition, failsOnlyAs_unitOfAction (numbers_forAction hg ha) e h⟩
    · obtain ⟨c, -, rfl⟩ := List.mem_map.1 hunit
      rw [g.result_constraintUnit c] at h
      cases h
  rcases bind_eq_error.1 h with h | ⟨components, -, h⟩
  · rw [g.result_componentsUnit] at h
    cases h
  -- The listings are all made.
  have hbuild := build_of_ofTask hg
  obtain ⟨initData, hinit⟩ := GroundModel.exists_initData hbuild
  obtain ⟨staticData, hstatic, -⟩ := GroundModel.exists_staticDataUnits hbuild
  rw [listings_eq_ok.2 ⟨initData, staticData, hinit, hstatic, rfl⟩] at h
  cases h

end CodeSource

/-- Where an error of a compilation comes from. -/
inductive CompileError.Arises (t : Task) (o : CompileOptions) : CompileError → Prop where
  /-- The task cannot be grounded. -/
  | grounding {e : GroundingError} :
    GroundModel.build t o.symbolOrder = .error e → Arises t o (.ground e)
  /-- A use of a constraint does not fit the catalog. -/
  | constraint {m : GroundModel} {e : GroundingError} :
    GroundModel.build t o.symbolOrder = .ok m →
    ConstraintPlan.ofTask t m.classification o.resolveStatics = .error e →
    ConstraintPlan.Faults t e → Arises t o (.ground e)
  /-- Something in an action has no code. -/
  | action {m : GroundModel} {a : Action} {e : CompileError} :
    GroundModel.build t o.symbolOrder = .ok m → a ∈ t.actions →
    (⟨m, a⟩ : CodeScope).Faults e → Arises t o e

/-- Whether an error is about a template. -/
def CompileError.IsOfTemplate : CompileError → Prop
  | .missingSlot _ _ | .unknownTemplate _ | .malformedTemplate _ _ | .unreadableTemplate _ => True
  | .ground _ | .invalidTerm _ _ => False

/-- None of the errors that arise is about a template, or about an object without an id in a
listing. -/
theorem CompileError.Arises.excludes {t : Task} {o : CompileOptions} {e : CompileError}
    (h : Arises t o e) :
    ¬ e.IsOfTemplate ∧ ∀ unit name, e ≠ .invalidTerm unit (.noObjectId name) := by
  cases h with
  | grounding _ => exact ⟨id, fun _ _ => nofun⟩
  | constraint _ _ _ => exact ⟨id, fun _ _ => nofun⟩
  | action _ _ hfaults => cases hfaults <;> exact ⟨id, fun _ _ => nofun⟩

/-- A compilation that fails does so while grounding, planning or rendering the unit of an action. -/
theorem arises_of_compileAfresh {t : Task} {o : CompileOptions} {e : CompileError}
    (h : compileAfresh t o Overrides.none = .error e) : e.Arises t o := by
  cases hg : CodeSource.ofTask t o with
  | error e' =>
    rw [compileAfresh_of_error _ hg] at h
    cases h
    rcases bind_eq_error.1 hg with hbuild | ⟨m, hbuild, hg⟩
    · exact .grounding hbuild
    rcases bind_eq_error.1 hg with hplan | ⟨plan, -, hg⟩
    · exact .constraint hbuild hplan (ConstraintPlan.faults_of_ofTask hplan)
    · cases hg
  | ok g =>
    rw [compileAfresh_of_ofTask _ hg] at h
    cases hset : g.artifactsAfresh Overrides.none with
    | error e' =>
      rw [hset] at h
      cases h
      obtain ⟨a, ha, hfaults⟩ := CodeSource.faults_of_artifactsAfresh hg hset
      exact .action (CodeSource.build_of_ofTask hg) ha hfaults
    | ok set =>
      rw [hset] at h
      cases h

/-- The listings of a grounded task are made. So with the built-in templates, a task compiles exactly
when it is grounded, its constraints are planned, and the unit of every action is made. Every error
is one of these stages: it reports something in the task, and never a template or an object without
an id. -/
theorem no_failure_after_action_units :
    (∀ (t : Task) (order : SymbolOrder) (m : GroundModel), GroundModel.build t order = .ok m →
      (∃ listing, m.initData = .ok listing) ∧ ∃ listings, m.staticDataUnits = .ok listings) ∧
    ∀ (t : Task) (o : CompileOptions) (requests : List String),
      ((∃ out, (compile t o Overrides.none (afterRequests Overrides.none requests)).1 = .ok out) ↔
        ∃ m plan, GroundModel.build t o.symbolOrder = .ok m ∧
          ConstraintPlan.ofTask t m.classification o.resolveStatics = .ok plan ∧
          ∀ position < t.actions.length, ∃ unit,
            (((⟨t, m, plan⟩ : CodeSource).actionUnit position).run Overrides.none
              (afterRequests Overrides.none requests)).1 = .ok unit) ∧
      ∀ e, (compile t o Overrides.none (afterRequests Overrides.none requests)).1 = .error e →
        e.Arises t o ∧ ¬ e.IsOfTemplate ∧ ∀ unit name, e ≠ .invalidTerm unit (.noObjectId name) := by
  refine ⟨fun t order m hm => ?_, fun t o requests => ⟨?_, fun e he => ?_⟩⟩
  · obtain ⟨listings, hlistings, -⟩ := GroundModel.exists_staticDataUnits hm
    exact ⟨GroundModel.exists_initData hm, listings, hlistings⟩
  · have hfaithful := faithful_afterRequests Overrides.none requests
    simp only [compile_fst t o hfaithful, run_fst _ hfaithful]
    constructor
    · rintro ⟨out, hout⟩
      obtain ⟨g, hg, -, -, hset⟩ := compileAfresh_eq_ok.1 hout
      have hunits := (CodeSource.exists_artifactsAfresh_iff_units hg).1 ⟨_, hset⟩
      obtain ⟨m, plan, hm, hplan, rfl⟩ := CodeSource.ofTask_eq_ok.1 hg
      exact ⟨m, plan, hm, hplan, hunits⟩
    · rintro ⟨m, plan, hm, hplan, hunits⟩
      have hg := CodeSource.ofTask_eq_ok.2 ⟨m, plan, hm, hplan, rfl⟩
      obtain ⟨set, hset⟩ := (CodeSource.exists_artifactsAfresh_iff_units hg).2 hunits
      rw [compileAfresh_of_ofTask _ hg, hset]
      exact ⟨_, rfl⟩
  · rw [compile_fst t o (faithful_afterRequests Overrides.none requests)] at he
    have harises := arises_of_compileAfresh he
    exact ⟨harises, harises.excludes⟩

/-- The two free places and the weight of `weighingTask` are listed, and the task compiles because the
unit of its action is made. -/
theorem no_failure_after_action_units_weighing :
    ∃ m initData staticData, GroundModel.build weighingTask .declaration = .ok m ∧
      (m.initPairs.map some).Perm [some (8, "_true_"), some (6, "_true_")] ∧
      m.initData = .ok initData ∧ m.staticDataUnits = .ok staticData ∧
      staticData.map (fun unit => (unit.name, unit.content))
        = [("static/weight.data", "(3) 7\n")] ∧
      ∃ out, (compile weighingTask ⟨.declaration, false⟩ Overrides.none
        (afterRequests Overrides.none [])).1 = .ok out := by
  have hgrounds : (CodeSource.ofTask weighingTask ⟨.declaration, false⟩).isOk = true := by
    decide +kernel
  obtain ⟨g, hg⟩ := exists_eq_ok hgrounds
  have hrenders := feature_eq hg (f := (·.rendersAction 0)) (b := true) (by decide +kernel)
  have hpairs := feature_eq hg (f := fun g => (weighingTask.init.filter fun e =>
    g.model.classification.isFluent e.symbol).map g.model.initialPair?)
    (b := [some (8, "_true_"), some (6, "_true_")]) (by decide +kernel)
  have hstaticTexts := feature_eq hg (f := fun g => g.model.staticDataUnits.toOption.map fun units =>
      units.map fun unit => (unit.name, unit.content))
    (b := some [("static/weight.data", "(3) 7\n")]) (by decide +kernel)
  obtain ⟨m, plan, hm, hplan, rfl⟩ := CodeSource.ofTask_eq_ok.1 hg
  obtain ⟨hlistings, hcompiles⟩ := no_failure_after_action_units
  obtain ⟨⟨initData, hinit⟩, staticData, hstatic⟩ := hlistings _ _ m hm
  have hperm := GroundModel.initPairs_perm hm
  rw [hpairs] at hperm
  rw [hstatic] at hstaticTexts
  refine ⟨m, initData, staticData, hm, hperm, hinit, hstatic, Option.some.inj hstaticTexts,
    (hcompiles _ ⟨.declaration, false⟩ []).1.2 ⟨m, plan, hm, hplan, fun position hposition => ?_⟩⟩
  obtain rfl : position = 0 := Nat.lt_one_iff.1 hposition
  exact CodeSource.exists_unit_of_rendersAction hrenders []

end Grounder
