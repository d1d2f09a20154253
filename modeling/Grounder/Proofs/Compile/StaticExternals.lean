import Grounder.Proofs.Code.Agreement
import Grounder.Proofs.Compile.Acceptance
import Grounder.Proofs.Compile.Files
import Grounder.Proofs.Constraint.Deferral

/-!
# `Grounder.Proofs.Compile.StaticExternals`: deciding constraints before the search

External constraints that read no fluent symbol can be decided before the search, and whether they
are is up to the caller. The two ways of compiling a task have the same plan apart from these
decisions (`CodeSource.ofTask_false_eq`), so with the built-in templates both succeed or neither
does.

A constraint moves from a unit of its own to a line of the listing when it is decided before the
search (`Emits`). Nothing else looks at the decision but the code that uses the constraint and the
unit of all components (`ShowsDecisions`). `decisions_move_instances` puts this together.
-/

set_option autoImplicit false

namespace Grounder

open Template Rendering TemplateCache Proofs.Support

/-! ### Sources -/

namespace ConstraintPlan

/-- The action at a position uses a constraint that is decided before the search. -/
def UsesStatic (plan : ConstraintPlan) (position : Nat) : Prop :=
  ∃ id ∈ plan.forAction position, ∃ c, plan.uses[id]? = some c ∧ c.isStatic = true

/-- Nothing changes for a number that is deferred anyway. -/
theorem getElem?_defer {plan : ConstraintPlan} {id : Nat}
    (h : ¬ ∃ c, plan.uses[id]? = some c ∧ c.isStatic = true) :
    plan.defer.uses[id]? = plan.uses[id]? := by
  rw [defer, List.getElem?_map]
  cases hget : plan.uses[id]? with
  | none => rfl
  | some c =>
    have hdeferred : c.isStatic = false := Bool.eq_false_iff.2 fun hstatic => h ⟨c, hget, hstatic⟩
    obtain ⟨⟨constraint, origin, _, args⟩, _⟩ := c
    cases hdeferred
    rfl

end ConstraintPlan

namespace CodeSource

variable {g : CodeSource}

/-- The source in which every constraint is deferred. -/
def defer (g : CodeSource) : CodeSource := { g with plan := g.plan.defer }

/-- Without static uses, the source of a task only leaves out the decisions. -/
theorem ofTask_false_eq (t : Task) (order : SymbolOrder) (resolve : Bool) :
    ofTask t ⟨order, false⟩ = (ofTask t ⟨order, resolve⟩).map defer := by
  rw [ofTask, ofTask]
  cases GroundModel.build t order with
  | error e => rfl
  | ok m =>
    show (ConstraintPlan.ofTask t m.classification false >>= _) = Except.map _
      (ConstraintPlan.ofTask t m.classification resolve >>= _)
    rw [ConstraintPlan.ofTask_false_eq t m.classification resolve]
    cases ConstraintPlan.ofTask t m.classification resolve <;> rfl

/-- The unit of an action does not change if the constraints with its numbers do not. -/
theorem unitOfAction_defer {a : Action} {ids : List Nat}
    (h : ∀ id ∈ ids, g.plan.defer.uses[id]? = g.plan.uses[id]?) :
    g.defer.unitOfAction a ids = g.unitOfAction a ids := by
  have hscopes : CodeScope.Agrees ⟨g.model, a⟩ ⟨g.defer.model, a⟩ := ⟨rfl, rfl, rfl, rfl, rfl⟩
  exact unitOfAction_eq hscopes rfl rfl h rfl

/-- The unit of an action does not change if nothing that the action uses is decided before the
search. -/
theorem actionUnit_defer {position : Nat} (h : ¬ g.plan.UsesStatic position) :
    g.defer.actionUnit position = g.actionUnit position := by
  have hids : ∀ id ∈ g.plan.forAction position, g.plan.defer.uses[id]? = g.plan.uses[id]? :=
    fun id hid => ConstraintPlan.getElem?_defer fun hstatic => h ⟨id, hid, hstatic⟩
  have htask : g.defer.task = g.task := rfl
  rw [actionUnit, actionUnit, htask]
  cases g.task.actions[position]? with
  | none => rfl
  | some a => exact unitOfAction_defer hids

/-- The unit of a constraint as a file. -/
def constraintFile (g : CodeSource) (c : NumberedUse) : Artifact :=
  ⟨c.unitName, g.constraintUnitContent c⟩

/-- The units of constraints are made. -/
theorem mapM_constraintUnit (g : CodeSource) (uses : List NumberedUse) :
    (uses.map g.constraintUnit).mapM (result Overrides.none)
      = .ok (uses.map g.constraintFile) := by
  rw [mapM_eq_ok, List.forall₂_map_left_iff, List.forall₂_map_right_iff, List.forall₂_same]
  intro c _
  rw [result_constraintUnit, constraintFile]

/-! ### Artifacts -/

/-- The artifacts that show which constraints of a plan are decided before the search: the unit of
all components, the listing of such constraints, their units, and the units of the actions that use
one of them. -/
inductive ShowsDecisions (plan : ConstraintPlan) (g : CodeSource) : Artifact → Prop where
  | components (content : String) : ShowsDecisions plan g ⟨"components.hxx", content⟩
  | listing (content : String) : ShowsDecisions plan g ⟨"static_constraints.data", content⟩
  | unit {u : NumberedUse} (hu : u ∈ plan.uses) (hstatic : u.isStatic = true) (content : String) :
      ShowsDecisions plan g ⟨u.unitName, content⟩
  | action {position : Nat} {a : Artifact} (huses : plan.UsesStatic position)
      (hunit : (g.actionUnit position).result Overrides.none = .ok a) : ShowsDecisions plan g a

section Artifacts

variable {set set' : ArtifactSet}

/-- What does not depend on other units is the same, apart from what shows decisions. -/
theorem shares_independentUnits {units units' : List Artifact}
    (h : g.independentUnits.mapM (result Overrides.none) = .ok units)
    (h' : g.defer.independentUnits.mapM (result Overrides.none) = .ok units') :
    Shares (ShowsDecisions g.plan g) (ShowsDecisions g.plan g.defer) units units' := by
  -- Units of actions may fail, and units of constraints are always made.
  rw [independentUnits, List.mapM_append, mapM_constraintUnit] at h h'
  obtain ⟨actions, hactions, h⟩ := bind_eq_ok.1 h
  obtain ⟨actions', hactions', h'⟩ := bind_eq_ok.1 h'
  cases h
  cases h'
  rw [List.mapM_map] at hactions hactions'
  refine Shares.append ?_ ?_
  · exact shares_of_mapM (P := g.plan.UsesStatic) hactions hactions'
      (fun position _ hposition => congrArg _ (actionUnit_defer hposition))
      (fun position _ hposition a ha => .action hposition ha)
      (fun position _ hposition a ha => .action hposition ha)
  · -- What is decided before the search gets a unit only if it is deferred.
    have hdeferred : g.defer.plan.deferred.map g.defer.constraintFile
        = g.plan.uses.map g.constraintFile := by
      show g.plan.defer.deferred.map _ = _
      rw [ConstraintPlan.deferred_defer, List.map_map]
      rfl
    rw [hdeferred]
    refine ⟨g.plan.deferred.map g.constraintFile, [], g.plan.statics.map g.constraintFile, ?_, ?_,
      by simp, ?_⟩
    · rw [List.append_nil]
    · rw [← List.map_append]
      refine List.Perm.map _
        ((List.filter_append_perm (fun c => !c.isStatic) g.plan.uses).symm.trans (.of_eq ?_))
      rw [ConstraintPlan.deferred, ConstraintPlan.statics]
      simp only [Bool.not_not]
    · intro a ha
      obtain ⟨u, hu, rfl⟩ := List.mem_map.1 ha
      obtain ⟨hu, hstatic⟩ := List.mem_filter.1 hu
      exact .unit hu hstatic _

/-- All artifacts are the same, apart from what shows decisions. -/
theorem shares_artifacts (hset : g.artifactsAfresh Overrides.none = .ok set)
    (hset' : g.defer.artifactsAfresh Overrides.none = .ok set') :
    Shares (ShowsDecisions g.plan g) (ShowsDecisions g.plan g.defer) set.artifacts
      set'.artifacts := by
  obtain ⟨units, components, listings, hunits, hcomponents, hlistings, rfl⟩ :=
    artifactsAfresh_eq_ok.1 hset
  obtain ⟨units', components', listings', hunits', hcomponents', hlistings', rfl⟩ :=
    artifactsAfresh_eq_ok.1 hset'
  rw [result_componentsUnit] at hcomponents hcomponents'
  cases hcomponents
  cases hcomponents'
  obtain ⟨initData, staticData, hinit, hstatic, rfl⟩ := listings_eq_ok.1 hlistings
  obtain ⟨initData', staticData', hinit', hstatic', rfl⟩ := listings_eq_ok.1 hlistings'
  -- Both have the same model.
  obtain rfl : initData = initData' := Except.ok.inj (hinit.symm.trans hinit')
  obtain rfl : staticData = staticData' := Except.ok.inj (hstatic.symm.trans hstatic')
  refine Shares.of_perm (List.mergeSort_perm _ _) (List.mergeSort_perm _ _) ?_
  refine (shares_independentUnits hunits hunits').append ?_
  have hfiles : Shares (ShowsDecisions g.plan g) (ShowsDecisions g.plan g.defer)
      [g.model.symbolsData, g.model.variablesData, g.model.objectsData, initData]
      [g.model.symbolsData, g.model.variablesData, g.model.objectsData, initData] := .refl _
  have hcomponents (content content' : String) :
      Shares (ShowsDecisions g.plan g) (ShowsDecisions g.plan g.defer)
        [⟨"components.hxx", content⟩] [⟨"components.hxx", content'⟩] :=
    shares_of_own (List.forall_mem_singleton.2 (.components _))
      (List.forall_mem_singleton.2 (.components _))
  have hlisting : Shares (ShowsDecisions g.plan g) (ShowsDecisions g.plan g.defer)
      [g.plan.staticConstraintsData] [g.defer.plan.staticConstraintsData] :=
    shares_of_own (List.forall_mem_singleton.2 (.listing _))
      (List.forall_mem_singleton.2 (.listing _))
  exact (hcomponents _ _).append (hfiles.append (hlisting.append (.refl staticData)))

end Artifacts

end CodeSource

/-! ### Where a constraint is emitted -/

/-- The number that a line of the listing begins with. -/
def lineNumber? (line : String) : Option Nat := (Code.nat? line.toList).map Prod.fst

/-- The line of a static constraint begins with its number. -/
theorem lineNumber?_staticLine (c : NumberedUse) :
    lineNumber? (ConstraintPlan.staticLine c) = some c.id := by
  obtain ⟨rest, hline⟩ := isAboutConstraint_staticLine c
  have hstops : Code.Stops (" ".toList ++ rest.toList) := Code.stops_append rfl (by decide) _
  rw [lineNumber?, hline, String.toList_append, String.toList_append, List.append_assoc,
    Code.nat?_toString c.id hstops, Option.map_some]

/-- The line of a static constraint is a single line if no parameter and no variable holds a line
end. -/
theorem not_mem_staticLine {c : NumberedUse} {x : Char} (hx : x = '\n' ∨ x = '\r')
    (hname : ∃ kind : ConstraintKind, c.constraint.name = kind.name)
    (hparameters : ∀ text ∈ c.constraint.parameters, x ∉ text.toList)
    (hvars : ∀ text ∈ c.constraint.vars, x ∉ text.toList) :
    x ∉ (ConstraintPlan.staticLine c).toList := by
  obtain ⟨kind, hkind⟩ := hname
  have hspace : x ∉ " ".toList := by rcases hx with rfl | rfl <;> decide
  have hid : x ∉ (toString c.id).toList :=
    not_mem_toString c.id (by rcases hx with rfl | rfl <;> decide)
  have hkind' : x ∉ kind.name.toList := by rcases hx with rfl | rfl <;> cases kind <;> decide
  rw [ConstraintPlan.staticLine, hkind]
  refine not_mem_intercalate hspace ?_
  simp only [List.forall_mem_cons, List.not_mem_nil, false_implies, implies_true, and_true]
  refine ⟨hid, hkind', ?_, not_mem_intercalate hspace hvars⟩
  split
  · rcases hx with rfl | rfl <;> decide
  · exact not_mem_intercalate (by rcases hx with rfl | rfl <;> decide) hparameters

/-- Every constraint of a compiled task is emitted in one place: in a unit if it is checked during
the search, and in a line of the listing if it is decided before the search. -/
structure Emits (t : Task) (out : Compilation) : Prop where
  /-- The only file of a deferred constraint is its unit. A static one has no file. -/
  units : ∀ u ∈ out.plan.uses, out.artifacts.filesNamed u.unitName
    = if u.isStatic then [] else
      [(⟨t, out.model, out.plan⟩ : CodeSource).constraintFile u]
  /-- There is one listing, put together from the lines of the static constraints. -/
  listing : out.artifacts.filesNamed "static_constraints.data"
    = [⟨"static_constraints.data", Text.unlines out.plan.staticLines⟩]
  /-- A static constraint has one line that begins with its number, and others have none. -/
  lines : ∀ u ∈ out.plan.uses, out.plan.staticLines.filter (lineNumber? · = some u.id)
    = if u.isStatic then [ConstraintPlan.staticLine u] else []
  /-- These are the lines of the text, unless a parameter or a variable holds a line end. -/
  physical : (∀ u ∈ out.plan.statics, ∀ text ∈ u.constraint.parameters ++ u.constraint.vars,
      '\n' ∉ text.toList ∧ '\r' ∉ text.toList) →
    Text.lines (Text.unlines out.plan.staticLines) = out.plan.staticLines

namespace ConstraintPlan

variable {t : Task} {c : Classification} {resolve : Bool} {plan : ConstraintPlan}

/-- No two uses have the same number. -/
theorem filter_id (hplan : ofTask t c resolve = .ok plan) {u : NumberedUse} (hu : u ∈ plan.uses) :
    plan.uses.filter (·.id = u.id) = [u] := by
  obtain ⟨state, others, huses, -, -⟩ := uses_of_ofTask hplan
  refine filter_eq_singleton hu (List.count_eq_one_of_mem ?_ (List.mem_map_of_mem hu))
  rw [huses, map_id_numbered]
  exact List.nodup_range

/-- The lines that begin with the number of a use are its own, which it has if it is static. -/
theorem filter_lineNumber? (hplan : ofTask t c resolve = .ok plan) {u : NumberedUse}
    (hu : u ∈ plan.uses) :
    plan.staticLines.filter (lineNumber? · = some u.id)
      = if u.isStatic then [staticLine u] else [] := by
  have hlines : (fun line => decide (lineNumber? line = some u.id)) ∘ staticLine
      = fun c => decide (c.id = u.id) := by
    funext c
    simp only [Function.comp_apply, lineNumber?_staticLine, Option.some.injEq]
  have hfilter : plan.statics.filter (fun c => decide (c.id = u.id))
      = if u.isStatic then [u] else [] := by
    rw [statics, List.filter_comm, filter_id hplan hu, List.filter_singleton]
    cases u.isStatic <;> rfl
  rw [staticLines, List.filter_map, hlines, hfilter]
  cases u.isStatic <;> rfl

end ConstraintPlan

/-- Every constraint of a compiled task is emitted in one place. -/
theorem CodeSource.emits {t : Task} {o : CompileOptions} {g : CodeSource}
    (hg : ofTask t o = .ok g) {set : ArtifactSet}
    (hset : g.artifactsAfresh Overrides.none = .ok set) : Emits t ⟨g.model, g.plan, set⟩ := by
  have hmodel := build_of_ofTask hg
  obtain ⟨rfl, hplan⟩ := task_and_plan_of_ofTask hg
  refine ⟨fun u hu => filesNamed_unitName hplan hset hu, ?_,
    fun u hu => ConstraintPlan.filter_lineNumber? hplan hu, ?_⟩
  · obtain ⟨units, components, listings, -, hcomponents, hlistings, -⟩ :=
      artifactsAfresh_eq_ok.1 hset
    refine filesNamed_other (a := g.plan.staticConstraintsData) hmodel hset hcomponents hlistings ?_
    obtain ⟨initData, staticData, -, -, rfl⟩ := listings_eq_ok.1 hlistings
    simp
  · intro htexts
    refine lines_unlines_of_not_mem fun x hx line hline => ?_
    obtain ⟨u, hu, rfl⟩ := List.mem_map.1 hline
    obtain ⟨origin, use, hcheck⟩ :=
      ConstraintPlan.checked_of_mem_uses hplan (List.mem_of_mem_filter hu)
    have htext : ∀ text ∈ u.constraint.parameters ++ u.constraint.vars, x ∉ text.toList := by
      intro text htext
      obtain ⟨hfeed, hreturn⟩ := htexts u hu text htext
      rcases hx with rfl | rfl
      · exact hfeed
      · exact hreturn
    rw [List.forall_mem_append] at htext
    exact not_mem_staticLine hx (ConstraintPlan.exists_kind_of_checkUse hcheck) htext.1 htext.2

/-! ### The two ways of compiling a task -/

/-- Two plans that differ in nothing but in which constraints are decided before the search: in the
first one those that qualify, in the second one none. -/
structure ConstraintPlan.DifferInDecisions (c : Classification) (plan plan' : ConstraintPlan) :
    Prop where
  /-- The same constraints have the same numbers, origins and terms. -/
  uses : plan'.uses = plan.uses.map NumberedUse.defer
  /-- Each action uses the same numbers. -/
  perAction : plan'.perAction = plan.perAction
  /-- An external constraint qualifies if no fluent symbol is applied in its terms, at any depth. -/
  statics : ∀ u ∈ plan.uses, u.isStatic = true ↔ u.constraint.kind = .external ∧
    ∀ symbol args, .app symbol args ∈ Term.subtermsOfAll u.args → c.isFluent symbol = false
  /-- Everything is deferred. -/
  deferred : ∀ u ∈ plan'.uses, u.isStatic = false

/-- A plan with decisions differs in them from the one without. -/
theorem ConstraintPlan.differInDecisions_defer {t : Task} {c : Classification}
    {plan : ConstraintPlan} (hplan : ofTask t c true = .ok plan) :
    DifferInDecisions c plan plan.defer := by
  refine ⟨rfl, rfl, fun u hu => (isStatic_iff hplan hu).trans (and_iff_right rfl), fun u hu => ?_⟩
  obtain ⟨u', -, rfl⟩ := List.mem_map.1 hu
  rfl

/-- Two compilations of a task, with and without decisions before the search. -/
structure MovesInstances (t : Task) (out out' : Compilation) : Prop where
  model : out'.model = out.model
  plans : out.plan.DifferInDecisions out.model.classification out'.plan
  emits : Emits t out
  emits' : Emits t out'
  /-- An artifact of one of the two is one of the other, unless it shows the decisions. -/
  artifacts : Shares (CodeSource.ShowsDecisions out.plan ⟨t, out.model, out.plan⟩)
    (CodeSource.ShowsDecisions out.plan ⟨t, out.model, out'.plan⟩) out.artifacts.artifacts
    out'.artifacts.artifacts

/-- Planning succeeds with decisions before the search if it succeeds without them. -/
theorem ConstraintPlan.exists_ofTask_iff (t : Task) (c : Classification) :
    (∃ plan, ofTask t c true = .ok plan) ↔ ∃ plan', ofTask t c false = .ok plan' := by
  rw [ofTask_false_eq t c true]
  constructor
  · rintro ⟨plan, hplan⟩
    exact ⟨plan.defer, map_eq_ok.2 ⟨plan, hplan, rfl⟩⟩
  · rintro ⟨plan', hplan'⟩
    obtain ⟨plan, hplan, -⟩ := map_eq_ok.1 hplan'
    exact ⟨plan, hplan⟩

/-- With the built-in templates, compiling succeeds with decisions before the search if it succeeds
without them. -/
theorem exists_compilation_true_iff (t : Task) (order : SymbolOrder)
    (requests requests' : List String) :
    (∃ out, (compile t ⟨order, true⟩ Overrides.none
        (afterRequests Overrides.none requests)).1 = .ok out) ↔
      ∃ out', (compile t ⟨order, false⟩ Overrides.none
        (afterRequests Overrides.none requests')).1 = .ok out' := by
  rw [exists_compilation_iff, exists_compilation_iff, CodeSource.ofTask_false_eq t order true]
  constructor
  · rintro ⟨g, hg, hrenders⟩
    exact ⟨g.defer, map_eq_ok.2 ⟨g, hg, rfl⟩, hrenders⟩
  · rintro ⟨g', hg', hrenders⟩
    obtain ⟨g, hg, rfl⟩ := map_eq_ok.1 hg'
    exact ⟨g, hg, hrenders⟩

/-- The artifacts that are made of a source and of the one with everything deferred are those of two
compilations that differ in the decisions. -/
theorem CodeSource.movesInstances {t : Task} {order : SymbolOrder} {g : CodeSource}
    (hg : ofTask t ⟨order, true⟩ = .ok g) {set set' : ArtifactSet}
    (hset : g.artifactsAfresh Overrides.none = .ok set)
    (hset' : g.defer.artifactsAfresh Overrides.none = .ok set') :
    MovesInstances t ⟨g.model, g.plan, set⟩ ⟨g.model, g.plan.defer, set'⟩ := by
  have hg' : ofTask t ⟨order, false⟩ = .ok g.defer :=
    (ofTask_false_eq t order true).trans (map_eq_ok.2 ⟨g, hg, rfl⟩)
  have hemits := emits hg hset
  have hemits' := emits hg' hset'
  have hshares := shares_artifacts hset hset'
  obtain ⟨rfl, hplan⟩ := task_and_plan_of_ofTask hg
  exact ⟨rfl, ConstraintPlan.differInDecisions_defer hplan, hemits, hemits', hshares⟩

/-- Whether constraints are decided before the search only moves them. Planning succeeds in both
cases or in neither, with plans that differ in the decisions alone. With the built-in templates, the
same holds of compiling. Every constraint is emitted in one place, which depends on the decision,
and the artifacts that do not show the decision are the same. -/
theorem decisions_move_instances (t : Task) (order : SymbolOrder)
    (requests requests' : List String) :
    (∀ c, ((∃ plan, ConstraintPlan.ofTask t c true = .ok plan) ↔
        ∃ plan', ConstraintPlan.ofTask t c false = .ok plan') ∧
      ∀ plan plan', ConstraintPlan.ofTask t c true = .ok plan →
        ConstraintPlan.ofTask t c false = .ok plan' → plan.DifferInDecisions c plan') ∧
    ((∃ out, (compile t ⟨order, true⟩ Overrides.none
        (afterRequests Overrides.none requests)).1 = .ok out) ↔
      ∃ out', (compile t ⟨order, false⟩ Overrides.none
        (afterRequests Overrides.none requests')).1 = .ok out') ∧
    ∀ out out',
      (compile t ⟨order, true⟩ Overrides.none (afterRequests Overrides.none requests)).1 = .ok out →
      (compile t ⟨order, false⟩ Overrides.none (afterRequests Overrides.none requests')).1
        = .ok out' →
      MovesInstances t out out' := by
  refine ⟨fun c => ⟨ConstraintPlan.exists_ofTask_iff t c, ?_⟩,
    exists_compilation_true_iff t order requests requests', ?_⟩
  · intro plan plan' hplan hplan'
    rw [ConstraintPlan.ofTask_false_eq t c true, hplan] at hplan'
    cases hplan'
    exact ConstraintPlan.differInDecisions_defer hplan
  · intro out out' h h'
    rw [compile_fst t _ (faithful_afterRequests _ _)] at h h'
    obtain ⟨model, plan, set⟩ := out
    obtain ⟨model', plan', set'⟩ := out'
    obtain ⟨g, hg, rfl, rfl, hset⟩ := compileAfresh_eq_ok.1 h
    obtain ⟨g', hg', rfl, rfl, hset'⟩ := compileAfresh_eq_ok.1 h'
    -- The second source is the first one with everything deferred.
    rw [CodeSource.ofTask_false_eq t order true, hg] at hg'
    cases hg'
    exact CodeSource.movesInstances hg hset hset'

/-- `loadingTask` compiles in both ways. Its external constraint is decided before the search in the
first one. -/
theorem decisions_move_instances_loading :
    ∃ out out',
      (compile loadingTask ⟨.declaration, true⟩ Overrides.none
        (afterRequests Overrides.none [])).1 = .ok out ∧
      (compile loadingTask ⟨.declaration, false⟩ Overrides.none
        (afterRequests Overrides.none [])).1 = .ok out' ∧
      MovesInstances loadingTask out out' ∧
      out.plan.uses.map (·.isStatic) = [false, true, false] := by
  obtain ⟨-, hiff, hmoves⟩ := decisions_move_instances loadingTask .declaration [] []
  have hcompiles : compiles loadingTask ⟨.declaration, true⟩ = true := by decide +kernel
  obtain ⟨out, hout⟩ := exists_compilation hcompiles []
  obtain ⟨out', hout'⟩ := hiff.1 ⟨out, hout⟩
  refine ⟨out, out', hout, hout', hmoves out out' hout hout', ?_⟩
  obtain ⟨g, hg, -, hplan, -⟩ := compileAfresh_eq_ok.1
    ((compile_fst _ _ (faithful_afterRequests Overrides.none [])).symm.trans hout)
  have hstatic : (CodeSource.ofTask loadingTask ⟨.declaration, true⟩).toOption.map (fun g =>
      g.plan.uses.map (·.isStatic)) = some [false, true, false] := by
    decide +kernel
  rw [hplan]
  exact feature_eq hg hstatic

end Grounder
