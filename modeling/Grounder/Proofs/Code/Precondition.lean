import Grounder.Proofs.Code.Expression
import Grounder.Proofs.Code.Guards
import Grounder.Proofs.Code.Unit

/-!
# `Grounder.Proofs.Code.Precondition`: generated preconditions mean the lifted ones

The statements in front of `return true;` in the unit of an action are read back as conditions.
`applicable_faithful` says that running them gives the truth value of the precondition of the
task, over every runtime and every binding. The numbers of constraints run beside the conjuncts on
both sides: rendering takes them one by one, and so does the meaning, so that each step of the
induction leaves the same numbers to both (`exists_guards_of_conditions`).
-/

set_option autoImplicit false

namespace Grounder

open Template Rendering

namespace CodeScope

variable {s : CodeScope} {plan : ConstraintPlan}

/-- A number of a plan that belongs to a use: the use under it has this number and the arguments
of the use. -/
def Numbers (plan : ConstraintPlan) (id : Nat) (use : ConstraintUse) : Prop :=
  ∃ c, plan.uses[id]? = some c ∧ c.id = id ∧ c.args = use.args

/-- A use that is planned under a number has that number. -/
theorem numbers_of_plans {c : Classification} {resolve : Bool} {origin : ConstraintOrigin}
    {id : Nat} {use : ConstraintUse} (h : plan.Plans c resolve origin id use) :
    Numbers plan id use := by
  obtain ⟨numbered, hget, hid, hcheck⟩ := h
  refine ⟨numbered, hget, hid, ?_⟩
  rw [ConstraintPlan.checkUse] at hcheck
  obtain ⟨d, -, hd⟩ := Proofs.Support.bind_eq_ok.1 hcheck
  rw [← Except.ok.inj hd]

/-- If a constraint comes first, the first number is its own, and rendering it takes this number. -/
theorem exists_planned {ids : List Nat} {use : ConstraintUse} {rest : List Formula}
    (hids : List.Forall₂ (Numbers plan) ids ((Formula.constraint use :: rest).filterMap
      Formula.use?)) :
    ∃ c left, ids = c.id :: left ∧ plan.uses[c.id]? = some c ∧ c.args = use.args ∧
      s.planned plan ids use = pure c ∧
      List.Forall₂ (Numbers plan) left (rest.filterMap Formula.use?) := by
  obtain ⟨id, left, ⟨c, hget, rfl, hargs⟩, hleft, rfl⟩ := List.forall₂_cons_right_iff.1 hids
  refine ⟨c, left, rfl, hget, hargs, ?_, hleft⟩
  rw [planned, List.head?_cons, Option.bind_some, hget]

/-- A list of formulas holds when its head and the rest of it do. -/
theorem allHold?_cons_eq {rt : Code.Runtime} {binding : Code.Binding} {ids left : List Nat}
    {f : Formula} {rest : List Formula} {b b' : Bool}
    (hf : s.holds? plan rt binding ids f = some (b, left))
    (hrest : s.allHold? plan rt binding left rest = some (b', [])) :
    s.allHold? plan rt binding ids (f :: rest) = some (b && b', []) := by
  rw [allHold?, hf]
  show (s.allHold? plan rt binding left rest >>= _) = _
  rw [hrest]
  rfl

/-- Rendered conjuncts are the texts of conditions. The conditions hold together when the conjuncts
do, and no number is left at the end. -/
theorem exists_guards_of_conditions (fs : List Formula) (hfs : ∀ f ∈ fs, f.IsConjunct)
    {ids : List Nat} (hids : List.Forall₂ (Numbers plan) ids (fs.filterMap Formula.use?))
    {codes : List String} (h : (s.conditions plan ids fs).result Overrides.none = .ok codes) :
    ∃ guards : List Code.Condition, codes = guards.map Code.Condition.text ∧
      ∀ rt binding, s.allHold? plan rt binding ids fs
        = some (guards.all (·.eval rt binding), []) := by
  induction fs generalizing ids codes with
  | nil =>
    cases hids
    rw [conditions] at h
    cases h
    exact ⟨[], rfl, fun rt binding => rfl⟩
  | cons f rest ih =>
    have hrest : ∀ f ∈ rest, f.IsConjunct := fun g hg => hfs g (List.mem_cons_of_mem f hg)
    cases f with
    | true => exact (hfs .true List.mem_cons_self).elim
    | and parts => exact (hfs (.and parts) List.mem_cons_self).elim
    | atom symbol args negated =>
      simp only [conditions, result_bind_eq_ok] at h
      obtain ⟨code, hcode, codes, hcodes, h⟩ := h
      cases h
      obtain ⟨c, rfl, hc⟩ := exists_condition_of_atom hcode
      obtain ⟨guards, rfl, hguards⟩ := ih hrest hids hcodes
      refine ⟨c :: guards, rfl, fun rt binding => ?_⟩
      exact allHold?_cons_eq (by rw [holds?, hc, Option.map_some]) (hguards rt binding)
    | relation op lhs rhs =>
      simp only [conditions, result_bind_eq_ok] at h
      obtain ⟨code, hcode, codes, hcodes, h⟩ := h
      cases h
      obtain ⟨c, rfl, hc⟩ := exists_condition_of_relation hcode
      obtain ⟨guards, rfl, hguards⟩ := ih hrest hids hcodes
      refine ⟨c :: guards, rfl, fun rt binding => ?_⟩
      exact allHold?_cons_eq (by rw [holds?, hc, Option.map_some]) (hguards rt binding)
    | constraint use =>
      -- The only conjunct that takes a number.
      obtain ⟨planned, left, rfl, hget, hargs, hplanned, hleft⟩ := exists_planned (s := s) hids
      simp only [conditions, result_bind_eq_ok, hplanned, result_pure] at h
      obtain ⟨c, hc, code, hcode, codes, hcodes, h⟩ := h
      cases hc
      cases h
      obtain ⟨c, rfl, hc⟩ := exists_condition_of_constraint hget hargs hcode
      obtain ⟨guards, rfl, hguards⟩ := ih hrest hleft hcodes
      refine ⟨c :: guards, rfl, fun rt binding => ?_⟩
      exact allHold?_cons_eq (by rw [holds?, hc, Option.map_some]) (hguards rt binding)

/-- The rendered precondition is the text of statements that leave with `true` exactly when the
precondition holds. -/
theorem exists_guards_of_preconditionCode {ids : List Nat}
    (hids : List.Forall₂ (Numbers plan) ids s.action.precondition.uses) {text : String}
    (h : (s.preconditionCode plan ids).result Overrides.none = .ok text) :
    ∃ guards, text = Code.guardsText guards ∧
      ∀ rt binding, s.holds? plan rt binding ids s.action.precondition
        = some (Code.runGuards rt binding guards, []) := by
  simp only [preconditionCode, result_bind_eq_ok] at h
  obtain ⟨codes, hcodes, h⟩ := h
  obtain ⟨guards, rfl, hguards⟩ :=
    exists_guards_of_conditions _ (Formula.isConjunct_of_mem_conjuncts _) hids hcodes
  refine ⟨guards, ?_, fun rt binding => ?_⟩
  · rw [← Except.ok.inj h, Code.guardsText, List.map_map]
    rfl
  · rw [← allHold?_conjuncts, hguards, Code.runGuards_eq_all]

end CodeScope

/-- The statements in front of `return true;` in the unit of an action leave with `true` exactly
when the precondition of the action holds. They are read back from the text of the unit, and their
constraints are those that the plan numbered for the precondition. -/
theorem applicable_faithful {t : Task} {o : CompileOptions} {g : CodeSource}
    (hg : CodeSource.ofTask t o = .ok g) (requests : List String) {position : Nat}
    {unit : Artifact}
    (hunit : ((g.actionUnit position).run Overrides.none
      (TemplateCache.afterRequests Overrides.none requests)).1 = .ok unit) :
    ∃ a preconditions effects guards,
      t.actions[position]? = some a ∧
      unit.content = actionUnitText g.model.domain g.model.instanceName a.name
        (CodeSource.paramsText a) (className a.name) (toString a.params.length) preconditions
        effects ∧
      Code.readGuards preconditions = some guards ∧
      List.Forall₂
        (g.plan.Plans g.model.classification o.resolveStatics (.action a.name))
        (g.plan.forAction position) a.precondition.uses ∧
      ∀ rt binding,
        (⟨g.model, a⟩ : CodeScope).holds? g.plan rt binding (g.plan.forAction position)
          a.precondition = some (Code.runGuards rt binding guards, []) := by
  obtain ⟨htask, hplan⟩ := CodeSource.task_and_plan_of_ofTask hg
  obtain ⟨a, ha, hresult⟩ := CodeSource.result_of_actionUnit requests hunit
  rw [htask] at ha
  obtain ⟨preconditions, effects, hpre, -, rfl⟩ := CodeSource.unitOfAction_eq_ok.1 hresult
  -- The plan of the task has numbered the uses of this very precondition.
  have hplanned := ConstraintPlan.forAction_planned hplan ha
  have hids : List.Forall₂ (CodeScope.Numbers g.plan) (g.plan.forAction position)
      a.precondition.uses := hplanned.imp fun _ _ => CodeScope.numbers_of_plans
  obtain ⟨guards, rfl, hguards⟩ :=
    CodeScope.exists_guards_of_preconditionCode (s := ⟨g.model, a⟩) hids hpre
  exact ⟨a, _, effects, guards, ha, rfl, Code.readGuards_text guards, hplanned, hguards⟩

/-- A task whose only action checks an atom, a comparison and a constraint. -/
def boardingTask : Task where
  domain := "ferry"
  instanceName := "one"
  typeDomains := [⟨"car", ["a"]⟩]
  objects := ["a"]
  predicates := [⟨"on", ["car"]⟩]
  functions := []
  actions := [⟨"board", [⟨"?c", "car"⟩],
    .and [.and [.atom "on" [.param "?c"] true, .true],
      .relation .equal (.param "?c") (.object "a"),
      .constraint ⟨"geq", [], [.param "?c", .object "a"]⟩],
    [⟨"on", [.param "?c"], none, false, none⟩]⟩]
  init := []
  constraints := []
  goal := none

/-- The unit of the action of `boardingTask` is rendered, and its precondition is faithful. -/
theorem applicable_faithful_boarding :
    ∃ g unit a guards, CodeSource.ofTask boardingTask ⟨.declaration, true⟩ = .ok g ∧
      ((g.actionUnit 0).run Overrides.none
        (TemplateCache.afterRequests Overrides.none [])).1 = .ok unit ∧
      boardingTask.actions[0]? = some a ∧
      ∀ rt binding, (⟨g.model, a⟩ : CodeScope).holds? g.plan rt binding (g.plan.forAction 0)
        a.precondition = some (Code.runGuards rt binding guards, []) := by
  obtain ⟨g, hg⟩ : ∃ g, CodeSource.ofTask boardingTask ⟨.declaration, true⟩ = .ok g := ⟨_, rfl⟩
  have hrenders : (CodeSource.ofTask boardingTask ⟨.declaration, true⟩).map
      (·.rendersAction 0) = .ok true := rfl
  rw [hg] at hrenders
  obtain ⟨unit, hunit⟩ := CodeSource.exists_unit_of_rendersAction (Except.ok.inj hrenders) []
  obtain ⟨a, -, -, guards, ha, -, -, -, hguards⟩ := applicable_faithful hg [] hunit
  exact ⟨g, unit, a, guards, hg, hunit, ha, hguards⟩

end Grounder
