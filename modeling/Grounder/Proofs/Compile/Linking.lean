import Grounder.Proofs.Code.Calls
import Grounder.Proofs.Compile.Builtin
import Grounder.Proofs.Compile.FileNames

/-!
# `Grounder.Proofs.Compile.Linking`: the generated units link

The plan of the constraints, the units of the actions, the units of the constraints, the unit of all
components and the listing of static constraints come from traversals of their own. `Links` says how
their results have to fit for the generated code to be complete, and `units_link` that they do,
whatever task is compiled with the built-in templates.
-/

set_option autoImplicit false

namespace Grounder

open Template Rendering TemplateCache Proofs.Support

/-! ### What is defined for a constraint -/

/-- A text with a line that begins the definition of the class for the constraint of that number. -/
def DefinesConstraint (id : Nat) (content : String) : Prop :=
  ∃ above below, content
    = Text.unlines (above ++ ("struct Constraint" ++ toString id ++ " \x7b") :: below)

/-- The unit of a constraint defines its class. -/
theorem definesConstraint_constraintUnitContent (g : CodeSource) (c : NumberedUse) :
    DefinesConstraint c.id (g.constraintUnitContent c) := by
  rw [CodeSource.constraintUnitContent, constraintUnitText]
  exact ⟨[_, _, _, _, _, _], _, rfl⟩

/-- A line about the static constraint of that number. -/
def IsAboutConstraint (id : Nat) (line : String) : Prop := ∃ rest, line = toString id ++ " " ++ rest

/-- The line of a static constraint is about it. -/
theorem isAboutConstraint_staticLine (c : NumberedUse) :
    IsAboutConstraint c.id (ConstraintPlan.staticLine c) := by
  rw [ConstraintPlan.staticLine, String.intercalate_cons_cons]
  exact ⟨_, rfl⟩

/-- The lines of the static constraints of a plan, in the order of their numbers. -/
def ConstraintPlan.staticLines (plan : ConstraintPlan) : List String :=
  plan.statics.map staticLine

/-- A compilation whose units fit together. -/
structure Links (t : Task) (resolveStatics : Bool) (out : Compilation) : Prop where
  /-- The unit of all components includes the units of all actions, and then those of the
  constraints that are checked during the search. Line by line it is read so, unless a name of the
  task hides a line feed, or the name of an action a quote. It lists the numbers of the constraints
  on states among those that it includes. -/
  components : ∃ (includes : List String) (stateIds : List Nat),
    out.artifacts.get? "components.hxx" = some ⟨"components.hxx",
      (⟨t, out.model, out.plan⟩ : CodeSource).componentsUnitContent includes stateIds⟩ ∧
    ((∀ name ∈ t.domain :: t.instanceName :: t.actions.map (·.name), '\n' ∉ name.toList) →
      (∀ a ∈ t.actions, '"' ∉ a.name.toList) →
      includedPaths
          ((⟨t, out.model, out.plan⟩ : CodeSource).componentsUnitContent includes stateIds)
        = includes) ∧
    includes = t.actions.map (fun a => CodeSource.actionUnitName a.name)
      ++ out.plan.deferred.map NumberedUse.unitName ∧
    (∀ path, path ∈ includes ↔ path ∈ out.artifacts.names ∧ IsUnitName path) ∧
    stateIds.Pairwise (· < ·) ∧
    ∀ id, id ∈ stateIds ↔ id < t.constraints.length ∧ out.plan.IsDeferred id
  /-- The constraints on states come first in the plan. -/
  states : ∀ id use, t.constraints[id]? = some use →
    out.plan.Plans out.model.classification resolveStatics .state id use
  /-- The statements of an action's precondition check the constraints that are planned for it, in
  the order of the conjuncts, each as it was planned. -/
  actions : ∀ position a, t.actions[position]? = some a →
    List.Forall₂ (out.plan.Plans out.model.classification resolveStatics (.action a.name))
      (out.plan.forAction position) a.precondition.uses ∧
    (out.plan.forAction position).Pairwise (· < ·) ∧
    ∃ preconditions effects guards,
      ⟨CodeSource.actionUnitName a.name, actionUnitText out.model.domain out.model.instanceName
        a.name (CodeSource.paramsText a) (className a.name) (toString a.params.length)
        preconditions effects⟩ ∈ out.artifacts.artifacts ∧
      Code.readGuards preconditions = some guards ∧
      List.Forall₂ (CodeScope.Calls out.plan) (out.plan.forAction position) (Code.calls guards)
  /-- Every constraint that is checked during the search has a unit that defines its class. -/
  deferred : ∀ id c, out.plan.uses[id]? = some c → c.isStatic = false →
    ∃ content, ⟨c.unitName, content⟩ ∈ out.artifacts.artifacts ∧ DefinesConstraint id content
  /-- Every constraint that is decided before the search has a line in the listing. -/
  statics : out.artifacts.get? "static_constraints.data"
      = some ⟨"static_constraints.data", Text.unlines out.plan.staticLines⟩ ∧
    ∀ id c, out.plan.uses[id]? = some c → c.isStatic = true →
      ∃ line ∈ out.plan.staticLines, IsAboutConstraint id line

namespace CodeSource

variable {g : CodeSource} {set : ArtifactSet}

/-! ### Where the units are -/

/-- A unit that does not depend on others is among the artifacts. -/
theorem exists_unit_mem (hset : g.artifactsAfresh Overrides.none = .ok set)
    {unit : Rendering Artifact} (hunit : unit ∈ g.independentUnits) :
    ∃ a ∈ set.artifacts, unit.result Overrides.none = .ok a := by
  obtain ⟨units, components, listings, hunits, -, -, rfl⟩ := artifactsAfresh_eq_ok.1 hset
  obtain ⟨a, ha, hresult⟩ := exists_counterpart (mapM_eq_ok.1 hunits).flip hunit
  exact ⟨a, ArtifactSet.mem_ofList.2 (List.mem_append_left _ ha), hresult⟩

/-- The unit of an action is among the artifacts, with its statements in their places. -/
theorem exists_actionUnit_mem (hset : g.artifactsAfresh Overrides.none = .ok set) {position : Nat}
    {a : Action} (ha : g.task.actions[position]? = some a) :
    ∃ preconditions effects,
      ((⟨g.model, a⟩ : CodeScope).preconditionCode g.plan (g.plan.forAction position)).result
        Overrides.none = .ok preconditions ∧
      ⟨actionUnitName a.name, actionUnitText g.model.domain g.model.instanceName a.name
        (paramsText a) (className a.name) (toString a.params.length) preconditions effects⟩
        ∈ set.artifacts := by
  have hlt := (List.getElem?_eq_some_iff.1 ha).1
  have hmem : g.actionUnit position ∈ g.independentUnits :=
    List.mem_append_left _ (List.mem_map_of_mem (List.mem_range.2 hlt))
  obtain ⟨unit, hunit, hresult⟩ := exists_unit_mem hset hmem
  rw [actionUnit, ha] at hresult
  obtain ⟨preconditions, effects, hpre, -, rfl⟩ := unitOfAction_eq_ok.1 hresult
  exact ⟨preconditions, effects, hpre, hunit⟩

/-- The unit of a deferred constraint is among the artifacts. -/
theorem constraintUnit_mem (hset : g.artifactsAfresh Overrides.none = .ok set) {c : NumberedUse}
    (hc : c ∈ g.plan.deferred) : ⟨c.unitName, g.constraintUnitContent c⟩ ∈ set.artifacts := by
  have hmem : g.constraintUnit c ∈ g.independentUnits :=
    List.mem_append_right _ (List.mem_map_of_mem hc)
  obtain ⟨unit, hunit, hresult⟩ := exists_unit_mem hset hmem
  rw [result_constraintUnit] at hresult
  cases hresult
  exact hunit

/-- The unit of all components is found under its name. -/
theorem get?_components (hset : g.artifactsAfresh Overrides.none = .ok set) :
    set.get? "components.hxx" = some ⟨"components.hxx",
      g.componentsUnitContent g.includedUnits g.stateConstraintIds⟩ := by
  obtain ⟨units, components, listings, -, hcomponents, hlistings, -⟩ :=
    artifactsAfresh_eq_ok.1 hset
  rw [result_componentsUnit] at hcomponents
  cases hcomponents
  exact get?_of_mem_fixedNames hset g.result_componentsUnit hlistings List.mem_cons_self
    (by simp [fixedNames])

/-- The listing of static constraints is found under its name. -/
theorem get?_staticConstraints (hset : g.artifactsAfresh Overrides.none = .ok set) :
    set.get? "static_constraints.data" = some g.plan.staticConstraintsData := by
  obtain ⟨units, components, listings, -, hcomponents, hlistings, -⟩ :=
    artifactsAfresh_eq_ok.1 hset
  refine get?_of_mem_fixedNames (a := g.plan.staticConstraintsData) hset hcomponents hlistings ?_
    (by simp [fixedNames, ConstraintPlan.staticConstraintsData])
  obtain ⟨initData, -, hlistings⟩ := bind_eq_ok.1 hlistings
  obtain ⟨staticData, -, hlistings⟩ := bind_eq_ok.1 hlistings
  cases hlistings
  simp

/-! ### What the unit of all components includes -/

/-- The name of a constraint's unit holds neither a line feed nor a quote. -/
theorem not_mem_unitName {c : Classification} {resolve : Bool}
    (hplan : ConstraintPlan.ofTask g.task c resolve = .ok g.plan) {use : NumberedUse}
    (huse : use ∈ g.plan.uses) {char : Char} (hchar : char = '\n' ∨ char = '"') :
    char ∉ use.unitName.toList := by
  obtain ⟨origin, checked, hcheck⟩ := ConstraintPlan.checked_of_mem_uses hplan huse
  obtain ⟨kind, hkind⟩ := ConstraintPlan.exists_kind_of_checkUse hcheck
  have hid : char ∉ (toString use.id).toList :=
    not_mem_toString use.id (by rcases hchar with rfl | rfl <;> decide)
  simp only [NumberedUse.unitName_eq, hkind, String.toList_append, List.mem_append, not_or]
  refine ⟨?_, hid, ?_, ?_, ?_⟩
  · rcases hchar with rfl | rfl <;> decide
  · rcases hchar with rfl | rfl <;> decide
  · rcases hchar with rfl | rfl <;> cases kind <;> decide
  · rcases hchar with rfl | rfl <;> decide

/-- The unit of all components is read back as the files that it includes, if no line feed is hidden
in a name of the task, and no quote in the name of an action. -/
theorem includedPaths_componentsUnitContent {o : CompileOptions} (hg : ofTask g.task o = .ok g)
    (hnames : ∀ name ∈ g.task.domain :: g.task.instanceName :: g.task.actions.map (·.name),
      '\n' ∉ name.toList)
    (hquotes : ∀ a ∈ g.task.actions, '"' ∉ a.name.toList) :
    includedPaths (g.componentsUnitContent g.includedUnits g.stateConstraintIds)
      = g.includedUnits := by
  obtain ⟨hdomain, hinstance⟩ := names_of_ofTask hg
  obtain ⟨-, hplan⟩ := task_and_plan_of_ofTask hg
  rw [List.forall_mem_cons, List.forall_mem_cons, ← hdomain, ← hinstance] at hnames
  obtain ⟨hdomain, hinstance, hactions⟩ := hnames
  -- The files are named after actions and constraints.
  have hpaths {char : Char} (hchar : char = '\n' ∨ char = '"')
      (hactions : ∀ a ∈ g.task.actions, char ∉ a.name.toList) :
      ∀ path ∈ g.includedUnits, char ∉ path.toList := by
    intro path hpath
    rcases List.mem_append.1 hpath with hpath | hpath
    · obtain ⟨a, ha, rfl⟩ := List.mem_map.1 hpath
      simp only [actionUnitName, String.toList_append, List.mem_append, not_or]
      refine ⟨⟨?_, hactions a ha⟩, ?_⟩ <;> rcases hchar with rfl | rfl <;> decide
    · obtain ⟨use, huse, rfl⟩ := List.mem_map.1 hpath
      exact not_mem_unitName hplan (List.mem_of_mem_filter huse) hchar
  rw [componentsUnitContent]
  refine includedPaths_componentsUnitText ?_ (hpaths (Or.inr rfl) hquotes)
  simp only [List.forall_mem_cons]
  refine ⟨hdomain, hinstance, feed_not_mem_toString _, feed_not_mem_toString _,
    feed_not_mem_toString _, feed_not_mem_joined ?_,
    hpaths (Or.inl rfl) fun a ha => hactions a.name (List.mem_map_of_mem ha)⟩
  intro text htext
  obtain ⟨id, -, rfl⟩ := List.mem_map.1 htext
  exact feed_not_mem_toString id

end CodeSource

/-- The generated units link, whatever task is compiled with the built-in templates. -/
theorem units_link {t : Task} {o : CompileOptions} (requests : List String) {out : Compilation}
    (h : (compile t o Overrides.none (afterRequests Overrides.none requests)).1 = .ok out) :
    Links t o.resolveStatics out := by
  rw [compile_fst t o (faithful_afterRequests Overrides.none requests)] at h
  obtain ⟨g, hg, hmodel, hplan, hset⟩ := compileAfresh_eq_ok.1 h
  obtain ⟨rfl, hplanned⟩ := CodeSource.task_and_plan_of_ofTask hg
  have hsource : (⟨g.task, out.model, out.plan⟩ : CodeSource) = g := by rw [hmodel, hplan]
  refine ⟨⟨g.includedUnits, g.stateConstraintIds, ?_, ?_, ?_, ?_, ?_, ?_⟩, ?_, ?_, ?_, ?_⟩
  · -- What the unit of all components includes and lists.
    rw [hsource]
    exact CodeSource.get?_components hset
  · rw [hsource]
    exact CodeSource.includedPaths_componentsUnitContent hg
  · rw [hplan]
    rfl
  · exact CodeSource.mem_includedUnits_iff hset
  · exact (ConstraintPlan.deferred_ids_ascend hplanned).sublist (List.filter_sublist.map _)
  · rw [hplan]
    exact ConstraintPlan.mem_stateIds_iff hplanned
  · -- How the constraints on states are planned.
    intro id use huse
    rw [hmodel, hplan]
    exact ConstraintPlan.state_planned hplanned huse
  · -- What the precondition of an action checks.
    intro position a ha
    rw [hmodel, hplan]
    have hplans := ConstraintPlan.forAction_planned hplanned ha
    refine ⟨hplans, ConstraintPlan.forAction_ascend hplanned position, ?_⟩
    obtain ⟨preconditions, effects, hpre, hmem⟩ := CodeSource.exists_actionUnit_mem hset ha
    obtain ⟨guards, hread, hcalls⟩ := CodeScope.exists_guards_calling (s := ⟨g.model, a⟩)
      (hplans.imp fun _ _ => CodeScope.numbers_of_plans) hpre
    exact ⟨preconditions, effects, guards, hmem, hread, hcalls⟩
  · -- The unit of each deferred constraint.
    intro id c hget hdeferred
    rw [hplan] at hget
    have hmem : c ∈ g.plan.deferred :=
      List.mem_filter.2 ⟨List.mem_of_getElem? hget, by rw [hdeferred]; rfl⟩
    obtain rfl := ConstraintPlan.id_of_getElem? hplanned hget
    exact ⟨_, CodeSource.constraintUnit_mem hset hmem, definesConstraint_constraintUnitContent g c⟩
  · -- The line of each static constraint.
    rw [hplan]
    refine ⟨CodeSource.get?_staticConstraints hset, fun id c hget hstatic => ?_⟩
    have hmem : c ∈ g.plan.statics := List.mem_filter.2 ⟨List.mem_of_getElem? hget, hstatic⟩
    obtain rfl := ConstraintPlan.id_of_getElem? hplanned hget
    exact ⟨_, List.mem_map_of_mem hmem, isAboutConstraint_staticLine c⟩

/-- A ferry with a constraint on states, and an action whose precondition uses an external
constraint and another one. -/
def loadingTask : Task := { boardingTask with
  actions := [⟨"board", [⟨"?c", "car"⟩],
    .and [.constraint ⟨"external", ["fits"], [.param "?c"]⟩,
      .and [.constraint ⟨"geq", [], [.param "?c", .object "a"]⟩]],
    [⟨"on", [.param "?c"], none, false, none⟩]⟩]
  constraints := [⟨"alldiff", [], [.object "a", .int 3]⟩] }

/-- The units of `loadingTask` link. Two of its constraints are checked during the search, and one
is decided before it. -/
theorem units_link_loading :
    ∃ out, (compile loadingTask ⟨.declaration, true⟩ Overrides.none
        (afterRequests Overrides.none [])).1 = .ok out ∧
      Links loadingTask true out ∧ out.plan.deferred.map (·.id) = [0, 2] ∧
      out.plan.statics.map (·.id) = [1] := by
  have hcompiles : compiles loadingTask ⟨.declaration, true⟩ = true := by decide +kernel
  obtain ⟨out, hout⟩ := exists_compilation hcompiles []
  obtain ⟨g, hg, -, hplan, -⟩ := compileAfresh_eq_ok.1
    ((compile_fst _ _ (faithful_afterRequests Overrides.none [])).symm.trans hout)
  have hids : (CodeSource.ofTask loadingTask ⟨.declaration, true⟩).toOption.map (fun g =>
      (g.plan.deferred.map (·.id), g.plan.statics.map (·.id))) = some ([0, 2], [1]) := by
    decide +kernel
  rw [hg] at hids
  obtain ⟨hdeferred, hstatics⟩ := Prod.mk.inj (Option.some.inj hids)
  refine ⟨out, hout, units_link [] hout, ?_, ?_⟩
  · rw [hplan]
    exact hdeferred
  · rw [hplan]
    exact hstatics

end Grounder
