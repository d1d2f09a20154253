import Grounder.Proofs.Compile.Acceptance

/-!
# `Grounder.Proofs.Compile.References`: what the terms of a compiled task refer to

Code that uses a name stands for something only if the name is declared. `references_resolve` says
for which terms of a compiled task this holds: for everything in the preconditions and effects of
actions. Generated code holds their terms as expressions, so they have to be resolved.

The terms of constraints on states are only copied as texts. There is no action whose parameters
they could mention, so parameters are refused (`ConstraintPlan.checkStateUse`), but nobody looks up
objects and symbols. So these can be exchanged for any others, and `ghost_compiles` is a task with
an object and a function that nobody declared.
-/

set_option autoImplicit false

namespace Grounder

open Rendering TemplateCache Proofs.Support

/-- A term refers to something in a task, as far as its outermost part goes: to one of the
parameters at hand, to an object with an id, or to a declared function of its arity. -/
def Term.Resolves (t : Task) (params : List String) : Term → Prop
  | .param name => name ∈ params
  | .object name => ∃ id, (ObjectNumbering.ofObjects t.objects).id? name = some id
  | .int _ => True
  | .app symbol args => ∃ f ∈ t.functions, f.name = symbol ∧ f.params.length = args.length

/-- No parameter occurs in the terms of a constraint. -/
def ConstraintUse.IsGround (use : ConstraintUse) : Prop :=
  ∀ u ∈ Term.subtermsOfAll use.args, ∀ name, u ≠ .param name

/-- Two uses of the same constraint with as many terms. -/
def ConstraintUse.SameShape (use use' : ConstraintUse) : Prop :=
  use'.name = use.name ∧ use'.parameters = use.parameters ∧ use'.args.length = use.args.length

/-! ### Preconditions and effects -/

/-- A symbol of the table that is no predicate is a declared function. -/
theorem SymbolTable.exists_function {t : Task} {table : SymbolTable} (h : ofTask t = .ok table)
    {name : String} {s : Symbol} (hs : table.get? name = some s)
    (hfunction : s.isPredicate = false) :
    ∃ f ∈ t.functions, f.name = name ∧ f.params = s.params := by
  obtain ⟨hdeclares, -, -⟩ := declares_of_ofTask h
  obtain ⟨hmem, rfl⟩ := (get?_eq_some hdeclares.nodup).1 hs
  have hsignature := List.mem_map_of_mem (f := Symbol.toSignature) hmem
  rw [hdeclares.signatures, allDeclarations, declarations, List.mem_append, List.mem_append,
    List.mem_map, List.mem_map] at hsignature
  rw [Signature.isPredicate] at hfunction
  rcases hsignature with (⟨p, -, hp⟩ | ⟨f, hf, heq⟩) | himplied
  · rw [← hp] at hfunction
    cases hfunction
  · exact ⟨f, hf, by rw [← heq], by rw [← heq]⟩
  · rw [impliedDeclarations] at himplied
    split at himplied
    · cases himplied
    · rw [List.mem_singleton.1 himplied] at hfunction
      cases hfunction

/-- What the code of an action refers to is there in the task. -/
theorem CodeScope.resolves_task {t : Task} {order : SymbolOrder} {m : GroundModel}
    (hm : GroundModel.build t order = .ok m) {a : Action} {u : Term}
    (h : (⟨m, a⟩ : CodeScope).Resolves u) : u.Resolves t (a.params.map (·.name)) := by
  obtain ⟨-, table, classification, numbering, init, htable, -, -, -, rfl⟩ :=
    GroundModel.build_eq_ok.1 hm
  cases u with
  | param name =>
    obtain ⟨position, hposition⟩ := h
    obtain ⟨hlt, hname, -⟩ := List.findIdx?_eq_some_iff_getElem.1 hposition
    exact List.mem_map.2 ⟨_, List.getElem_mem hlt, of_decide_eq_true hname⟩
  | object name => exact h
  | int n => trivial
  | app symbol args =>
    obtain ⟨sym, hsym, hfunction, harity⟩ := h
    obtain ⟨f, hf, hname, hparams⟩ := SymbolTable.exists_function htable hsym hfunction
    refine ⟨f, hf, hname, ?_⟩
    rw [hparams, ← harity]
    rfl

/-- The unit of every action of a compiled task was rendered, whatever the templates are. -/
theorem CodeSource.exists_code_of_action {g : CodeSource} {overrides : Overrides}
    {set : ArtifactSet} (hset : g.artifactsAfresh overrides = .ok set) {position : Nat} {a : Action}
    (ha : g.task.actions[position]? = some a) :
    ∃ preconditions effects,
      ((⟨g.model, a⟩ : CodeScope).preconditionCode g.plan (g.plan.forAction position)).result
        overrides = .ok preconditions ∧
      (⟨g.model, a⟩ : CodeScope).effectCode.result overrides = .ok effects := by
  obtain ⟨units, -, -, hunits, -, -, -⟩ := artifactsAfresh_eq_ok.1 hset
  have hlt := (List.getElem?_eq_some_iff.1 ha).1
  have hmem : g.actionUnit position ∈ g.independentUnits :=
    List.mem_append_left _ (List.mem_map_of_mem (List.mem_range.2 hlt))
  obtain ⟨unit, -, hunit⟩ := exists_counterpart (mapM_eq_ok.1 hunits).flip hmem
  rw [actionUnit, ha] at hunit
  simp only [unitOfAction, result_bind_eq_ok] at hunit
  obtain ⟨preconditions, hpre, effects, heff, -⟩ := hunit
  exact ⟨preconditions, effects, hpre, heff⟩

/-- Everything in the preconditions and effects refers to something if the artifacts are made. -/
theorem CodeSource.resolves_of_artifactsAfresh {t : Task} {o : CompileOptions} {g : CodeSource}
    {overrides : Overrides} {set : ArtifactSet} (hg : ofTask t o = .ok g)
    (hset : g.artifactsAfresh overrides = .ok set) {a : Action} (ha : a ∈ t.actions) :
    (∀ u ∈ a.precondition.terms, u.Resolves t (a.params.map (·.name))) ∧
      ∀ e ∈ a.effects, ∀ u ∈ e.terms, u.Resolves t (a.params.map (·.name)) := by
  have hmodel := build_of_ofTask hg
  have htask := (task_and_plan_of_ofTask hg).1
  obtain ⟨position, hposition⟩ := List.getElem?_of_mem ha
  obtain ⟨preconditions, effects, hpre, heff⟩ := exists_code_of_action hset (htask ▸ hposition)
  have hresolves := CodeScope.resolvesPrecondition_of_code (s := ⟨g.model, a⟩)
    (numbers_forAction hg hposition) hpre
  constructor
  · intro u hu
    exact CodeScope.resolves_task hmodel (hresolves.2 u hu)
  · intro e he u hu
    exact CodeScope.resolves_task hmodel (CodeScope.resolves_of_effectCode heff e he u hu)

/-! ### Constraints on states -/

/-- The catalog looks at the number of variables, but not at the variables. -/
theorem ConstraintKind.fault?_congr (kind : ConstraintKind) {parameters vars vars' : List String}
    (h : vars'.length = vars.length) :
    kind.fault? parameters vars' = kind.fault? parameters vars := by
  cases kind <;> simp only [fault?, h]

/-- There is a text for each term. -/
theorem Term.length_texts (ts : List Term) : (Term.texts ts).length = ts.length := by
  induction ts with
  | nil => rfl
  | cons t rest ih => rw [texts, List.length_cons, List.length_cons, ih]

namespace ConstraintPlan

variable {c : Classification} {resolve : Bool}

/-- A constraint on states that passes the check mentions no parameter. -/
theorem isGround_of_checkStateUse {use : ConstraintUse} {planned : PlannedUse}
    (h : checkStateUse c resolve use = .ok planned) : use.IsGround := by
  rw [checkStateUse] at h
  split at h
  · cases h
  · rename_i hnone
    exact (Term.firstParamAmong?_eq_none_iff use.args).1 hnone

/-- No parameter occurs in the constraints on states of a task with a plan. -/
theorem isGround_of_ofTask {t : Task} {plan : ConstraintPlan} (h : ofTask t c resolve = .ok plan) :
    ∀ use ∈ t.constraints, use.IsGround := by
  rw [ofTask_eq] at h
  obtain ⟨state, hstate, -⟩ := bind_eq_ok.1 h
  intro use huse
  obtain ⟨planned, -, hcheck⟩ := exists_counterpart (mapM_eq_ok.1 hstate).flip huse
  exact isGround_of_checkStateUse hcheck

/-- A constraint on states passes the check if one of the same shape does and no parameter occurs
in it. -/
theorem exists_checkStateUse {use use' : ConstraintUse} {planned : PlannedUse}
    (h : checkStateUse c resolve use = .ok planned) (hshape : use.SameShape use')
    (hground : use'.IsGround) : ∃ planned', checkStateUse c resolve use' = .ok planned' := by
  obtain ⟨hname, hparameters, hlength⟩ := hshape
  obtain ⟨d, hd, -⟩ := checkUse_eq_ok.1 (checkUse_of_checkStateUse h)
  obtain ⟨kind, hkind, hfault, -⟩ := CatalogConstraint.make_eq_ok.1 hd
  have hvars : (Term.texts use'.args).length = (Term.texts use.args).length := by
    rw [Term.length_texts, Term.length_texts, hlength]
  rw [checkStateUse, (Term.firstParamAmong?_eq_none_iff use'.args).2 hground]
  refine ⟨_, checkUse_eq_ok.2 ⟨_, CatalogConstraint.make_eq_ok.2 ⟨kind, ?_, ?_, rfl⟩, rfl⟩⟩
  · rw [hname, hkind]
  · rw [hparameters, kind.fault?_congr hvars, hfault]

/-- A task has a plan if it has one with constraints on states of the same shapes. -/
theorem exists_ofTask {t : Task} {plan : ConstraintPlan} (h : ofTask t c resolve = .ok plan)
    {uses : List ConstraintUse} (hshape : List.Forall₂ ConstraintUse.SameShape t.constraints uses)
    (hground : ∀ use ∈ uses, use.IsGround) :
    ∃ plan', ofTask { t with constraints := uses } c resolve = .ok plan' := by
  rw [ofTask_eq] at h
  obtain ⟨state, hstate, h⟩ := bind_eq_ok.1 h
  obtain ⟨actions, hactions, -⟩ := bind_eq_ok.1 h
  obtain ⟨state', hstate'⟩ : ∃ state', uses.mapM (checkStateUse c resolve) = .ok state' := by
    refine exists_mapM_eq_ok fun use' huse' => ?_
    obtain ⟨use, huse, hsame⟩ := exists_counterpart hshape huse'
    obtain ⟨planned, -, hcheck⟩ := exists_counterpart (mapM_eq_ok.1 hstate).flip huse
    exact exists_checkStateUse hcheck hsame (hground use' huse')
  rw [ofTask_eq]
  exact ⟨_, bind_eq_ok.2 ⟨state', hstate', bind_eq_ok.2 ⟨actions, hactions, rfl⟩⟩⟩

end ConstraintPlan

/-- Everything in the preconditions and effects of a compiled task refers to something, whatever the
templates are. In a constraint on states, nothing is a parameter. With the built-in templates,
nothing more is asked: the task compiles as well with any other constraints of these shapes. -/
theorem references_resolve {t : Task} {o : CompileOptions} {overrides : Overrides}
    (requests : List String) {out : Compilation}
    (h : (compile t o overrides (afterRequests overrides requests)).1 = .ok out) :
    (∀ a ∈ t.actions,
      (∀ u ∈ a.precondition.terms, u.Resolves t (a.params.map (·.name))) ∧
      ∀ e ∈ a.effects, ∀ u ∈ e.terms, u.Resolves t (a.params.map (·.name))) ∧
    (∀ use ∈ t.constraints, use.IsGround) ∧
    (overrides = Overrides.none → ∀ uses,
      List.Forall₂ ConstraintUse.SameShape t.constraints uses → (∀ use ∈ uses, use.IsGround) →
      ∃ out', (compile { t with constraints := uses } o overrides
        (afterRequests overrides requests)).1 = .ok out') := by
  have hafresh := h
  rw [compile_fst t o (faithful_afterRequests overrides requests)] at hafresh
  obtain ⟨g, hg, -, -, hset⟩ := compileAfresh_eq_ok.1 hafresh
  obtain ⟨-, hplan⟩ := CodeSource.task_and_plan_of_ofTask hg
  refine ⟨fun a ha => CodeSource.resolves_of_artifactsAfresh hg hset ha,
    ConstraintPlan.isGround_of_ofTask hplan, ?_⟩
  rintro rfl uses hshape hground
  have hrenders := (CodeSource.exists_artifactsAfresh_iff hg).1 ⟨_, hset⟩
  obtain ⟨plan', hplan'⟩ := ConstraintPlan.exists_ofTask hplan hshape hground
  -- Grounding does not look at constraints, so the model stays the same.
  have hmodel := CodeSource.build_of_ofTask hg
  have hbuild : GroundModel.build { t with constraints := uses } o.symbolOrder = .ok g.model :=
    hmodel
  exact (exists_compilation_iff requests).2 ⟨⟨_, g.model, plan'⟩,
    bind_eq_ok.2 ⟨_, hbuild, bind_eq_ok.2 ⟨plan', hplan', rfl⟩⟩, hrenders⟩

/-- The lamps of `shiftAction`, which have to show different colors in every state. -/
def contrastTask : Task :=
  { lampTask shiftAction with constraints := [⟨"alldiff", [], [.app "front" [], .app "back" []]⟩] }

/-- The terms of `contrastTask` refer to something, and it still compiles if its constraint is about
a function that nobody declared. -/
theorem references_resolve_contrast :
    ∃ out out',
      (compile contrastTask ⟨.declaration, false⟩ Overrides.none
        (afterRequests Overrides.none [])).1 = .ok out ∧
      (Term.app "back" []).Resolves contrastTask [] ∧
      (compile { contrastTask with
        constraints := [⟨"alldiff", [], [.app "front" [], .app "nowhere" []]⟩] }
        ⟨.declaration, false⟩ Overrides.none (afterRequests Overrides.none [])).1 = .ok out' := by
  have hcompiles : compiles contrastTask ⟨.declaration, false⟩ = true := by decide +kernel
  obtain ⟨out, hout⟩ := exists_compilation hcompiles []
  obtain ⟨hactions, -, hother⟩ := references_resolve [] hout
  obtain ⟨out', hout'⟩ := hother rfl [⟨"alldiff", [], [.app "front" [], .app "nowhere" []]⟩]
    (.cons ⟨rfl, rfl, rfl⟩ .nil) (by
      rw [List.forall_mem_singleton, ConstraintUse.IsGround]
      simp [Term.subtermsOfAll, Term.subterms])
  have hback := (hactions shiftAction List.mem_cons_self).2 _ List.mem_cons_self
    (.app "back" []) List.mem_cons_self
  exact ⟨out, out', hout, hback, hout'⟩

/-- Lamps with a constraint about a function and an object that nobody declared. -/
def ghostTask : Task :=
  { lampTask shiftAction with
    constraints := [⟨"alldiff", [], [.app "nowhere" [], .object "ghost"]⟩] }

/-- The task compiles, though the constraint refers to nothing. -/
theorem ghost_compiles :
    ∃ out, (compile ghostTask ⟨.declaration, false⟩ Overrides.none
        (afterRequests Overrides.none [])).1 = .ok out ∧
      ∃ use ∈ ghostTask.constraints,
        ∀ u ∈ Term.subtermsOfAll use.args, ¬ u.Resolves ghostTask [] := by
  have hcompiles : compiles ghostTask ⟨.declaration, false⟩ = true := by decide +kernel
  obtain ⟨out, hout⟩ := exists_compilation hcompiles []
  refine ⟨out, hout, _, List.mem_cons_self, ?_⟩
  simp only [Term.subtermsOfAll, Term.subterms, List.nil_append, List.append_nil,
    List.cons_append, List.forall_mem_cons, List.not_mem_nil, false_implies, implies_true, and_true]
  constructor
  · rintro ⟨f, hf, hname, -⟩
    revert hname
    revert f
    decide
  · rintro ⟨id, hid⟩
    cases hid

end Grounder
