import Grounder.Proofs.Compile.References

/-!
# `Grounder.Proofs.Compile.PlannedConstraints`: planning and rendering number constraints alike

Planning numbers the uses of constraints of a whole task. Rendering goes through one precondition at
a time and takes the numbers of its action one by one, whenever it comes to a use. Nothing but their
order ties the two together. `rendered_as_planned` says that this is enough:

* `NumbersUses`: the numbers are positions. Those of the constraints on states come first, and those
  of the actions follow without a gap, one for each use and in the order of the conjuncts.
* `RendersUses`: with the numbers of an action, its precondition is rendered from the constraints
  that were made from its uses, whatever the model is.
* No rendering of an action finds a use without a number, whatever the templates are.

It also says when there is no plan: if a constraint on states mentions a parameter, or if a use does
not fit the catalog.
-/

set_option autoImplicit false

namespace Grounder

open Proofs.Support

/-! ### Errors under any templates -/

namespace Rendering

variable {α β : Type} {P : CompileError → Prop} {r : Rendering α}

/-- All errors that a rendering can end with are of one kind, whatever templates it is given. -/
def ErrorsAre (P : CompileError → Prop) : Rendering α → Prop
  | .done result => ∀ e, result = .error e → P e
  | .ask _ next => ∀ t, (next t).ErrorsAre P

/-- A value is no error. -/
theorem errorsAre_pure (a : α) : (pure a : Rendering α).ErrorsAre P := by
  intro e he
  cases he

/-- A rendering that ends with an error has no other one. -/
theorem errorsAre_fail {e : CompileError} (h : P e) : (fail e : Rendering α).ErrorsAre P := by
  intro e' he'
  cases he'
  exact h

/-- The errors of a sequence are those of its parts. -/
theorem ErrorsAre.bind {f : α → Rendering β} (hr : r.ErrorsAre P) (hf : ∀ a, (f a).ErrorsAre P) :
    (r >>= f).ErrorsAre P := by
  show (r.bind f).ErrorsAre P
  -- The first part may still be waiting, so the induction is on it, for any templates it is given.
  induction r with
  | done result =>
    cases result with
    | ok a => exact hf a
    | error e =>
      intro e' he'
      cases he'
      exact hr e rfl
  | ask name next ih =>
    intro t
    exact ih t (hr t)

/-- Filling in a template fails at slots without a binding only. -/
theorem errorsAre_fill {name : String} {bindings : Template.Bindings}
    (h : ∀ template slot, P (.missingSlot template slot)) : (fill name bindings).ErrorsAre P := by
  intro t e he
  rw [Template.render] at he
  cases hsegments : t.segments.mapM (Template.segmentText t.name bindings) with
  | ok texts =>
    rw [hsegments] at he
    cases he
  | error e' =>
    rw [hsegments] at he
    cases he
    -- Some segment has failed, so it is a slot.
    obtain ⟨segment, -, hsegment⟩ := exists_of_mapM_eq_error hsegments
    cases segment with
    | literal text => cases hsegment
    | slot slot =>
      rw [Template.segmentText] at hsegment
      split at hsegment
      · cases hsegment
      · cases hsegment
        exact h _ _

/-- A request fails only as a load does. -/
theorem load_of_get_eq_error {overrides : Overrides} {cache : TemplateCache} {name : String}
    {e : CompileError} (h : (cache.get overrides name).1 = .error e) :
    TemplateCache.load overrides name = .error e := by
  rw [TemplateCache.get] at h
  split at h
  · cases h
  · split at h
    · cases h
    · rename_i hload
      cases h
      exact hload

/-- A run fails as its rendering does, or as a load of a template does. -/
theorem ErrorsAre.run (h : r.ErrorsAre P) {overrides : Overrides}
    (hload : ∀ name e, TemplateCache.load overrides name = .error e → P e) {cache : TemplateCache}
    {e : CompileError} (he : (r.run overrides cache).1 = .error e) : P e := by
  induction r generalizing cache with
  | done result => exact h e he
  | ask name next ih =>
    -- The cache finds a template, from wherever it is, or the run ends with the error of a load.
    rw [Rendering.run] at he
    split at he
    · rename_i t cache' heq
      exact ih t (h t) he
    · rename_i e' cache' heq
      cases he
      exact hload name e (load_of_get_eq_error (congrArg Prod.fst heq))

/-- Renderings one after another, the first of which that fails ends them all. -/
def inOrder : List (Rendering α) → Rendering (List α)
  | [] => pure []
  | r :: rest => do
    let a ← r
    let as ← inOrder rest
    return a :: as

end Rendering

/-- The error that there is no number for a use of a constraint. -/
def CompileError.IsUnplanned : CompileError → Prop
  | .invalidTerm _ (.unplannedConstraint _) => True
  | _ => False

/-- Templates have nothing to do with numbers. -/
theorem TemplateCache.not_isUnplanned_of_load {overrides : Overrides} {name : String}
    {e : CompileError} (h : load overrides name = .error e) : ¬ e.IsUnplanned := by
  have hparse : ∀ source, Template.parse name source = .error e → ¬ e.IsUnplanned := by
    intro source hsource
    rw [Template.parse] at hsource
    split at hsource
    · cases hsource
    · cases hsource
      exact id
  rw [load] at h
  split at h
  · exact hparse _ h
  · cases h
    exact id
  · rw [loadBuiltin] at h
    split at h
    · exact hparse _ h
    · cases h
      exact id

namespace CodeScope

open Rendering

variable {s : CodeScope} {plan : ConstraintPlan}

/-- A rendering never finds a use of a constraint without a number. -/
def NeverUnplanned {α : Type} (r : Rendering α) : Prop := r.ErrorsAre (¬ ·.IsUnplanned)

/-- Nor does one that fills in a template. -/
theorem neverUnplanned_fill (name : String) (bindings : Template.Bindings) :
    NeverUnplanned (fill name bindings) :=
  errorsAre_fill fun _ _ => id

/-- Looking up a symbol does not ask for numbers. -/
theorem neverUnplanned_require (symbol : String) : NeverUnplanned (s.require symbol) := by
  rw [require, SymbolTable.require]
  cases s.model.symbols.get? symbol with
  | none => exact errorsAre_fail id
  | some sym => exact errorsAre_pure sym

/-- A check of something else does not ask for numbers. -/
theorem neverUnplanned_check {holds : Bool} {fault : TermFault}
    (h : ¬ (s.invalid fault).IsUnplanned) : NeverUnplanned (s.check holds fault) := by
  cases holds with
  | false => exact errorsAre_fail h
  | true => exact errorsAre_pure ()

mutual

/-- Terms have no numbers. -/
theorem neverUnplanned_term (t : Term) : NeverUnplanned (s.term t) := by
  cases t with
  | param name =>
    rw [term, paramCode]
    split
    · exact errorsAre_pure _
    · exact errorsAre_fail id
  | object name =>
    rw [term, objectCode]
    split
    · exact errorsAre_pure _
    · exact errorsAre_fail id
  | int n =>
    rw [term]
    exact errorsAre_pure _
  | app symbol args =>
    rw [term]
    refine (neverUnplanned_require symbol).bind fun sym => ?_
    refine (neverUnplanned_check id).bind fun _ => ?_
    refine (neverUnplanned_check id).bind fun _ => ?_
    exact (neverUnplanned_terms args).bind fun codes => neverUnplanned_fill _ _

/-- Terms have no numbers. -/
theorem neverUnplanned_terms (ts : List Term) : NeverUnplanned (s.terms ts) := by
  cases ts with
  | nil =>
    rw [terms]
    exact errorsAre_pure []
  | cons t rest =>
    rw [terms]
    refine (neverUnplanned_term t).bind fun code => ?_
    exact (neverUnplanned_terms rest).bind fun codes => errorsAre_pure _

end

/-- Arguments have no numbers. -/
theorem neverUnplanned_args (ts : List Term) : NeverUnplanned (s.args ts) :=
  (neverUnplanned_terms ts).bind fun codes => errorsAre_pure (joined codes)

/-- Atoms have no numbers. -/
theorem neverUnplanned_atom (symbol : String) (ts : List Term) (negated : Bool) :
    NeverUnplanned (s.atom symbol ts negated) := by
  have hequality : ∀ codes, NeverUnplanned (s.equalityCode codes) := by
    intro codes
    rw [equalityCode.eq_def]
    split
    · exact errorsAre_pure _
    · exact errorsAre_fail id
  have hholds : ∀ sym codes, NeverUnplanned (s.holdsCode sym codes) := by
    intro sym codes
    rw [holdsCode.eq_def]
    dsimp only
    split
    · exact neverUnplanned_fill _ _
    · exact neverUnplanned_fill _ _
  rw [atom, positiveAtom]
  refine ErrorsAre.bind ?_ fun code => errorsAre_pure _
  refine (neverUnplanned_terms ts).bind fun codes => ?_
  split
  · exact hequality codes
  · refine (neverUnplanned_require symbol).bind fun sym => ?_
    refine (neverUnplanned_check id).bind fun _ => ?_
    refine (neverUnplanned_check id).bind fun _ => ?_
    exact hholds sym codes

/-- Comparisons have no numbers. -/
theorem neverUnplanned_relation (op : Comparison) (lhs rhs : Term) :
    NeverUnplanned (s.relation op lhs rhs) := by
  rw [relation]
  refine (neverUnplanned_term lhs).bind fun l => ?_
  exact (neverUnplanned_term rhs).bind fun r => errorsAre_pure _

/-- A constraint with a number has one. -/
theorem neverUnplanned_constraintCheck (c : NumberedUse) :
    NeverUnplanned (s.constraintCheck c) := by
  rw [constraintCheck]
  exact (neverUnplanned_args c.args).bind fun codes => neverUnplanned_fill _ _

/-- Effects have no numbers. -/
theorem neverUnplanned_effectLine (e : Effect) : NeverUnplanned (s.effectLine e) := by
  have hrefuse : ∀ isFaulty fault, NeverUnplanned (s.refuse e isFaulty fault) := by
    intro isFaulty fault
    cases isFaulty with
    | false => exact errorsAre_pure ()
    | true => exact errorsAre_fail id
  have hvalue : ∀ sym, NeverUnplanned (s.effectValue sym e) := by
    intro sym
    rw [effectValue]
    split
    · exact (hrefuse _ _).bind fun _ => errorsAre_pure _
    · refine (hrefuse _ _).bind fun _ => ?_
      split
      · exact neverUnplanned_term _
      · exact errorsAre_fail id
  rw [effectLine]
  refine (hrefuse _ _).bind fun _ => ?_
  refine (neverUnplanned_require e.symbol).bind fun sym => ?_
  refine (hrefuse _ _).bind fun _ => ?_
  refine (neverUnplanned_check id).bind fun _ => ?_
  refine (hrefuse _ _).bind fun _ => ?_
  refine (hvalue sym).bind fun value => ?_
  refine (neverUnplanned_args e.args).bind fun codes => ?_
  exact (neverUnplanned_fill _ _).bind fun code => errorsAre_pure _

/-- Effects have no numbers. -/
theorem neverUnplanned_effectLines (effects : List Effect) :
    NeverUnplanned (s.effectLines effects) := by
  induction effects with
  | nil => exact errorsAre_pure []
  | cons e rest ih =>
    rw [effectLines]
    refine (neverUnplanned_effectLine e).bind fun line => ?_
    exact ih.bind fun lines => errorsAre_pure _

/-! ### Preconditions -/

/-- The conditions of conjuncts, where `cs` stand for the constraints among them, one by one. -/
def conjunctCodes (s : CodeScope) : List Formula → List NumberedUse → List (Rendering String)
  | [], _ => []
  | .atom symbol args negated :: rest, cs => s.atom symbol args negated :: s.conjunctCodes rest cs
  | .relation op lhs rhs :: rest, cs => s.relation op lhs rhs :: s.conjunctCodes rest cs
  | .constraint _ :: rest, c :: cs => s.constraintCheck c :: s.conjunctCodes rest cs
  | _ :: rest, cs => s.conjunctCodes rest cs

/-- The statements of a precondition, where `cs` stand for its constraints. -/
def codeWith (s : CodeScope) (cs : List NumberedUse) : Rendering String := do
  let codes ← inOrder (s.conjunctCodes s.action.precondition.conjuncts cs)
  return "\n".intercalate (codes.map guardLine)

/-- What is rendered with numbers is rendered with the constraints that have these numbers. -/
theorem conditions_eq (fs : List Formula) {ids : List Nat} {cs : List NumberedUse}
    (hcs : List.Forall₂ (fun id c => plan.uses[id]? = some c) ids cs)
    (hlength : cs.length = (fs.filterMap Formula.use?).length) :
    s.conditions plan ids fs = inOrder (s.conjunctCodes fs cs) := by
  induction fs generalizing ids cs with
  | nil => rw [conditions, conjunctCodes, inOrder]
  | cons f rest ih =>
    cases f with
    | true =>
      rw [conditions, conjunctCodes]
      · exact ih hcs hlength
      all_goals simp
    | and parts =>
      rw [conditions, conjunctCodes]
      · exact ih hcs hlength
      all_goals simp
    | atom symbol args negated => rw [conditions, conjunctCodes, inOrder, ih hcs hlength]
    | relation op lhs rhs => rw [conditions, conjunctCodes, inOrder, ih hcs hlength]
    | constraint use =>
      cases hcs with
      | nil => simp [Formula.use?] at hlength
      | @cons id c ids cs hid hcs =>
        -- Both sides take the first number, or the constraint with it.
        have hplanned : s.planned plan (id :: ids) use = pure c := by
          rw [planned, List.head?_cons, Option.bind_some, hid]
        rw [conditions, conjunctCodes, inOrder, hplanned, List.tail_cons]
        rw [ih hcs (by simpa [Formula.use?] using hlength)]
        rfl

/-- A precondition that is rendered with constraints never lacks a number. -/
theorem neverUnplanned_conjunctCodes (fs : List Formula) (cs : List NumberedUse) :
    NeverUnplanned (inOrder (s.conjunctCodes fs cs)) := by
  have hfirst : ∀ {r : Rendering String} {rest : List (Rendering String)}, NeverUnplanned r →
      NeverUnplanned (inOrder rest) → NeverUnplanned (inOrder (r :: rest)) := by
    intro r rest hr hrest
    exact hr.bind fun code => hrest.bind fun codes => errorsAre_pure _
  -- None of the conditions looks for a number, since the constraints are there already.
  fun_induction conjunctCodes s fs cs with
  | case1 => exact errorsAre_pure []
  | case2 cs symbol args negated rest ih => exact hfirst (neverUnplanned_atom _ _ _) ih
  | case3 cs op lhs rhs rest ih => exact hfirst (neverUnplanned_relation _ _ _) ih
  | case4 use rest c cs ih => exact hfirst (neverUnplanned_constraintCheck c) ih
  | case5 _ _ _ _ _ _ ih => exact ih

/-- The code of a precondition never lacks a number either. -/
theorem neverUnplanned_codeWith (cs : List NumberedUse) : NeverUnplanned (s.codeWith cs) :=
  (neverUnplanned_conjunctCodes _ cs).bind fun _ => errorsAre_pure _

/-- A precondition is rendered from the constraints with its numbers. -/
theorem preconditionCode_eq {ids : List Nat} {cs : List NumberedUse}
    (hcs : List.Forall₂ (fun id c => plan.uses[id]? = some c) ids cs)
    (hlength : cs.length = s.action.precondition.uses.length) :
    s.preconditionCode plan ids = s.codeWith cs := by
  rw [preconditionCode, codeWith, conditions_eq _ hcs hlength]

end CodeScope

/-! ### The numbers of a plan -/

/-- A constraint of a plan carries everything that its use in the task says. -/
structure NumberedUse.IsMadeFrom (c : NumberedUse) (use : ConstraintUse)
    (place : ConstraintOrigin) : Prop where
  name : c.constraint.name = use.name
  parameters : c.constraint.parameters = use.parameters
  args : c.args = use.args
  vars : c.constraint.vars = Term.texts use.args
  origin : c.origin = place

namespace ConstraintPlan

variable {t : Task} {c : Classification} {resolve : Bool} {plan : ConstraintPlan}

/-- The plan numbers the uses of constraints in a task by their order: first those in every state,
then those of the preconditions, action by action and conjunct by conjunct. -/
structure NumbersUses (plan : ConstraintPlan) (t : Task) : Prop where
  ids : ∀ (i : Nat) (c : NumberedUse), plan.uses[i]? = some c → c.id = i
  state : ∀ (i : Nat) (use : ConstraintUse), t.constraints[i]? = some use →
    ∃ c, plan.uses[i]? = some c ∧ c.IsMadeFrom use .state
  actions : ∀ (position : Nat) (a : Action), t.actions[position]? = some a →
    List.Forall₂ (fun id use => ∃ c, plan.uses[id]? = some c ∧ c.IsMadeFrom use (.action a.name))
      (plan.forAction position) a.precondition.uses
  /-- No number is left out or given twice. -/
  consecutive : ∃ n, plan.uses.length = t.constraints.length + n ∧
    (List.range t.actions.length).flatMap plan.forAction = List.range' t.constraints.length n
  outside : ∀ position, t.actions.length ≤ position → plan.forAction position = []

/-- The preconditions of a task are rendered from what the plan made of their uses, whatever the
model and the templates are. -/
structure RendersUses (plan : ConstraintPlan) (t : Task) : Prop where
  code : ∀ (m : GroundModel) (position : Nat) (a : Action), t.actions[position]? = some a →
    ∃ cs, List.Forall₂ (fun id c => plan.uses[id]? = some c) (plan.forAction position) cs ∧
      List.Forall₂ (fun c use => c.IsMadeFrom use (.action a.name)) cs a.precondition.uses ∧
      (⟨m, a⟩ : CodeScope).preconditionCode plan (plan.forAction position)
        = (⟨m, a⟩ : CodeScope).codeWith cs
  /-- There is a number for every use that a rendering comes to. -/
  planned : ∀ (m : GroundModel) (overrides : Overrides) (cache : TemplateCache) (position : Nat)
    (e : CompileError),
    (((⟨t, m, plan⟩ : CodeSource).actionUnit position).run overrides cache).1 = .error e →
      ¬ e.IsUnplanned

/-- What the plan has for a use is made from it. -/
theorem exists_isMadeFrom {origin : ConstraintOrigin} {id : Nat} {use : ConstraintUse}
    (h : plan.Plans c resolve origin id use) :
    ∃ numbered, plan.uses[id]? = some numbered ∧ numbered.IsMadeFrom use origin := by
  obtain ⟨numbered, hget, -, hcheck⟩ := h
  obtain ⟨d, hd, hplanned⟩ := checkUse_eq_ok.1 hcheck
  obtain ⟨kind, -, -, rfl⟩ := CatalogConstraint.make_eq_ok.1 hd
  have hconstraint := congrArg PlannedUse.constraint hplanned
  refine ⟨numbered, hget, ?_⟩
  exact {
    name := congrArg CatalogConstraint.name hconstraint
    parameters := congrArg CatalogConstraint.parameters hconstraint
    args := congrArg PlannedUse.args hplanned
    vars := congrArg CatalogConstraint.vars hconstraint
    origin := congrArg PlannedUse.origin hplanned }

/-- How many uses a plan has, and which numbers its actions take. -/
theorem sizes_of_ofTask (hplan : ofTask t c resolve = .ok plan) :
    plan.perAction.length = t.actions.length ∧
      ∃ n, plan.uses.length = t.constraints.length + n ∧
        plan.perAction.flatten = List.range' t.constraints.length n := by
  rw [ofTask_eq] at hplan
  obtain ⟨state, hstate, hplan⟩ := bind_eq_ok.1 hplan
  obtain ⟨parts, hparts, hplan⟩ := bind_eq_ok.1 hplan
  cases hplan
  have hstateLength := (mapM_eq_ok.1 hstate).length_eq
  have hpartsLength := (mapM_eq_ok.1 hparts).length_eq
  refine ⟨?_, (parts.map List.length).sum, ?_, ?_⟩
  · rw [length_groups, List.length_map, hpartsLength]
  · rw [numbered, List.length_map, List.length_zipIdx, List.length_append, List.length_flatten,
      hstateLength]
  · rw [flatten_groups, hstateLength]

/-- Planning numbers the uses of a task by their order. -/
theorem numbersUses_of_ofTask (hplan : ofTask t c resolve = .ok plan) : plan.NumbersUses t := by
  obtain ⟨hlength, n, huses, hnumbers⟩ := sizes_of_ofTask hplan
  refine ⟨fun i use h => id_of_getElem? hplan h, ?_, ?_, ⟨n, huses, ?_⟩, ?_⟩
  · intro i use huse
    exact exists_isMadeFrom (state_planned hplan huse)
  · intro position a ha
    exact (forAction_planned hplan ha).imp fun id use h => exists_isMadeFrom h
  · rw [← hlength, ← hnumbers]
    exact flatMap_forAction plan
  · intro position hposition
    rw [forAction, List.getElem?_eq_none (hlength ▸ hposition)]
    rfl

/-- If every number has a constraint from a use, the constraints can be listed. -/
theorem NumbersUses.exists_constraints (h : plan.NumbersUses t) {position : Nat} {a : Action}
    (ha : t.actions[position]? = some a) :
    ∃ cs, List.Forall₂ (fun id c => plan.uses[id]? = some c) (plan.forAction position) cs ∧
      List.Forall₂ (fun c use => c.IsMadeFrom use (.action a.name)) cs a.precondition.uses := by
  have hall := h.actions position a ha
  -- The constraints are chosen one by one, so the induction is on the numbers and their uses.
  generalize plan.forAction position = ids, a.precondition.uses = uses at hall ⊢
  induction hall with
  | nil => exact ⟨[], .nil, .nil⟩
  | cons huse _ ih =>
    obtain ⟨c, hget, hmade⟩ := huse
    obtain ⟨cs, hids, huses⟩ := ih
    exact ⟨c :: cs, .cons hget hids, .cons hmade huses⟩

/-- A plan that numbers the uses of a task by their order is one that its renderings go by. -/
theorem NumbersUses.rendersUses (h : plan.NumbersUses t) : plan.RendersUses t := by
  have hcode : ∀ (m : GroundModel) (position : Nat) (a : Action),
      t.actions[position]? = some a → ∃ cs,
        List.Forall₂ (fun id c => plan.uses[id]? = some c) (plan.forAction position) cs ∧
        List.Forall₂ (fun c use => c.IsMadeFrom use (.action a.name)) cs a.precondition.uses ∧
        (⟨m, a⟩ : CodeScope).preconditionCode plan (plan.forAction position)
          = (⟨m, a⟩ : CodeScope).codeWith cs := by
    intro m position a ha
    obtain ⟨cs, hids, huses⟩ := h.exists_constraints ha
    exact ⟨cs, hids, huses, CodeScope.preconditionCode_eq hids huses.length_eq⟩
  refine ⟨hcode, ?_⟩
  intro m overrides cache position e he
  refine Rendering.ErrorsAre.run (P := (¬ ·.IsUnplanned)) ?_
    (fun name e hload => TemplateCache.not_isUnplanned_of_load hload) he
  rw [CodeSource.actionUnit]
  split
  · rename_i a ha
    obtain ⟨cs, -, -, heq⟩ := hcode m position a ha
    -- Only the precondition asks for numbers, and it goes as with the constraints at hand.
    rw [CodeSource.unitOfAction]
    show CodeScope.NeverUnplanned
      ((⟨m, a⟩ : CodeScope).preconditionCode plan (plan.forAction position) >>= _)
    rw [heq]
    refine (CodeScope.neverUnplanned_codeWith cs).bind fun preconditions => ?_
    refine Rendering.ErrorsAre.bind ?_ fun effects => ?_
    · exact (CodeScope.neverUnplanned_effectLines a.effects).bind fun lines =>
        Rendering.errorsAre_pure _
    · exact (CodeScope.neverUnplanned_fill _ _).bind fun content => Rendering.errorsAre_pure _
  · exact Rendering.errorsAre_fail id

/-! ### Tasks without a plan -/

/-- A use in every state passes the check if no parameter occurs in it and it fits the catalog. -/
theorem exists_checkStateUse_iff {use : ConstraintUse} :
    (∃ planned, checkStateUse c resolve use = .ok planned) ↔
      use.IsGround ∧ ∃ d, CatalogConstraint.make use.name use.parameters (Term.texts use.args)
        = .ok d := by
  constructor
  · rintro ⟨planned, h⟩
    obtain ⟨d, hd, -⟩ := checkUse_eq_ok.1 (checkUse_of_checkStateUse h)
    exact ⟨isGround_of_checkStateUse h, d, hd⟩
  · rintro ⟨hground, d, hd⟩
    rw [checkStateUse, (Term.firstParamAmong?_eq_none_iff use.args).2 hground]
    exact ⟨_, checkUse_eq_ok.2 ⟨d, hd, rfl⟩⟩

/-- A task has a plan if all its uses pass their checks. -/
theorem exists_plan_iff : (∃ plan, ofTask t c resolve = .ok plan) ↔
    (∀ use ∈ t.constraints, use.IsGround) ∧
      ∀ use, (use ∈ t.constraints ∨ ∃ a ∈ t.actions, use ∈ a.precondition.uses) →
        ∃ d, CatalogConstraint.make use.name use.parameters (Term.texts use.args) = .ok d := by
  constructor
  · rintro ⟨plan, hplan⟩
    refine ⟨isGround_of_ofTask hplan, ?_⟩
    rw [ofTask_eq] at hplan
    obtain ⟨state, hstate, hplan⟩ := bind_eq_ok.1 hplan
    obtain ⟨parts, hparts, -⟩ := bind_eq_ok.1 hplan
    rintro use (huse | ⟨a, ha, huse⟩)
    · obtain ⟨planned, -, hcheck⟩ := exists_counterpart (mapM_eq_ok.1 hstate).flip huse
      exact (exists_checkStateUse_iff.1 ⟨planned, hcheck⟩).2
    · obtain ⟨part, -, hpart⟩ := exists_counterpart (mapM_eq_ok.1 hparts).flip ha
      obtain ⟨planned, -, hcheck⟩ := exists_counterpart (mapM_eq_ok.1 hpart).flip huse
      obtain ⟨d, hd, -⟩ := checkUse_eq_ok.1 hcheck
      exact ⟨d, hd⟩
  · rintro ⟨hground, hfits⟩
    obtain ⟨state, hstate⟩ : ∃ state, t.constraints.mapM (checkStateUse c resolve) = .ok state :=
      exists_mapM_eq_ok fun use huse =>
        exists_checkStateUse_iff.2 ⟨hground use huse, hfits use (.inl huse)⟩
    obtain ⟨parts, hparts⟩ : ∃ parts, t.actions.mapM (fun a =>
        a.precondition.uses.mapM (checkUse c resolve (.action a.name))) = .ok parts := by
      refine exists_mapM_eq_ok fun a ha => exists_mapM_eq_ok fun use huse => ?_
      obtain ⟨d, hd⟩ := hfits use (.inr ⟨a, ha, huse⟩)
      exact ⟨_, checkUse_eq_ok.2 ⟨d, hd, rfl⟩⟩
    rw [ofTask_eq]
    exact ⟨_, bind_eq_ok.2 ⟨state, hstate, bind_eq_ok.2 ⟨parts, hparts, rfl⟩⟩⟩

/-- Planning fails at a constraint on states with a parameter, and at a use that does not fit the
catalog. -/
theorem exists_error_iff : (∃ e, ofTask t c resolve = .error e) ↔
    (∃ use ∈ t.constraints, ∃ name, .param name ∈ Term.subtermsOfAll use.args) ∨
      ∃ use, (use ∈ t.constraints ∨ ∃ a ∈ t.actions, use ∈ a.precondition.uses) ∧
        ∃ e, CatalogConstraint.make use.name use.parameters (Term.texts use.args) = .error e := by
  have hnot : ∀ {α : Type} (x : Except GroundingError α),
      (∃ e, x = .error e) ↔ ¬ ∃ a, x = .ok a := by
    intro α x
    cases x <;> simp
  have hground : ∀ use : ConstraintUse,
      (∃ name, .param name ∈ Term.subtermsOfAll use.args) ↔ ¬ use.IsGround := by
    intro use
    simp only [ConstraintUse.IsGround]
    push Not
    constructor
    · rintro ⟨name, hmem⟩
      exact ⟨_, hmem, name, rfl⟩
    · rintro ⟨u, hmem, name, rfl⟩
      exact ⟨name, hmem⟩
  simp only [hnot, hground, exists_plan_iff]
  rw [not_and_or]
  push Not
  rfl

/-- The planner and the renderer number constraints alike. If there is a plan, its numbers follow
the order of the uses in the task, and every action of the task is rendered from the constraints
that were made from the uses of its precondition. There is none exactly if a constraint on states
mentions a parameter or some use does not fit the catalog. -/
theorem rendered_as_planned (t : Task) (c : Classification) (resolve : Bool) :
    (∀ plan, ofTask t c resolve = .ok plan → plan.NumbersUses t ∧ plan.RendersUses t) ∧
      ((∃ e, ofTask t c resolve = .error e) ↔
        (∃ use ∈ t.constraints, ∃ name, .param name ∈ Term.subtermsOfAll use.args) ∨
          ∃ use, (use ∈ t.constraints ∨ ∃ a ∈ t.actions, use ∈ a.precondition.uses) ∧
            ∃ e, CatalogConstraint.make use.name use.parameters (Term.texts use.args)
              = .error e) := by
  refine ⟨?_, exists_error_iff⟩
  intro plan hplan
  have hnumbers := numbersUses_of_ofTask hplan
  exact ⟨hnumbers, hnumbers.rendersUses⟩

/-- Two actions of one name, the first of which has constraints at different depths. -/
def twinTask : Task :=
  { lampTask shiftAction with
    actions := [
      ⟨"twin", [⟨"x", "color"⟩], .and [
        .constraint ⟨"alldiff", [], [.param "x", .app "front" []]⟩,
        .and [.true, .constraint ⟨"geq", [], [.app "front" [], .app "back" []]⟩]], []⟩,
      ⟨"twin", [], .constraint ⟨"external", ["near"], [.object "red"]⟩, []⟩]
    constraints := [⟨"alldiff", [], [.app "front" [], .app "back" []]⟩] }

/-- The constraint on states of `twinTask` has the number 0, so that its first action goes on with
1 and 2, and its second action has 3. With a parameter in every state, there is no plan. -/
theorem rendered_as_planned_twins :
    ∃ plan, ofTask twinTask ⟨[]⟩ true = .ok plan ∧ plan.forAction 0 = [1, 2] ∧
      plan.forAction 1 = [3] ∧ plan.NumbersUses twinTask ∧ plan.RendersUses twinTask ∧
      ∃ e, ofTask { twinTask with constraints := [⟨"alldiff", [], [.param "x", .int 1]⟩] }
        ⟨[]⟩ true = .error e := by
  obtain ⟨plan, hplan⟩ : ∃ plan, ofTask twinTask ⟨[]⟩ true = .ok plan :=
    exists_eq_ok (by decide +kernel)
  have hnumbers : plan.perAction = [[1, 2], [3]] := feature_eq hplan (by decide +kernel)
  obtain ⟨hnumbered, hrenders⟩ := (rendered_as_planned twinTask ⟨[]⟩ true).1 plan hplan
  refine ⟨plan, hplan, ?_, ?_, hnumbered, hrenders, ?_⟩
  · rw [forAction, hnumbers]
    rfl
  · rw [forAction, hnumbers]
    rfl
  · exact (rendered_as_planned _ ⟨[]⟩ true).2.2
      (.inl ⟨_, List.mem_cons_self, "x", List.mem_cons_self⟩)

end ConstraintPlan

end Grounder
