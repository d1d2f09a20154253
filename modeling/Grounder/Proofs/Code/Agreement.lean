import Grounder.Code.Unit

/-!
# `Grounder.Proofs.Code.Agreement`: what the code of an action depends on

The code of a term, of a conjunct or of an effect refers to the declared symbols, to their classes
and to the ids of objects. Of the action that it is in, it needs the name for messages and the
parameters. A conjunct that is a constraint also refers to the planned constraint of its number.
There is nothing else, so scopes that agree in these give the same code (`CodeScope.Agrees`), and so
do the actions in them (`CodeSource.unitOfAction_eq`). In particular the handles of state variables
play no part, nor does the precondition that a conjunct was found in.
-/

set_option autoImplicit false

namespace Grounder

namespace CodeScope

/-- Scopes with the same symbols, classes and objects, and with actions of the same name and
parameters. -/
structure Agrees (s s' : CodeScope) : Prop where
  symbols : s'.model.symbols = s.model.symbols
  classification : s'.model.classification = s.model.classification
  objects : s'.model.objects = s.model.objects
  name : s'.action.name = s.action.name
  params : s'.action.params = s.action.params

namespace Agrees

variable {s s' : CodeScope}

/-- A parameter has the same code. -/
theorem paramCode_eq (h : s.Agrees s') (name : String) : s'.paramCode name = s.paramCode name := by
  rw [paramCode, paramCode, Action.paramPosition?, Action.paramPosition?, h.params, h.name]

/-- A fault is reported in the same way. -/
theorem invalid_eq (h : s.Agrees s') (fault : TermFault) : s'.invalid fault = s.invalid fault := by
  rw [invalid, invalid, h.name]

/-- An object has the same code. -/
theorem objectCode_eq (h : s.Agrees s') (name : String) :
    s'.objectCode name = s.objectCode name := by
  rw [objectCode, objectCode, h.objects, h.invalid_eq]

/-- A symbol is declared the same. -/
theorem require_eq (h : s.Agrees s') (symbol : String) : s'.require symbol = s.require symbol := by
  rw [require, require, h.symbols, h.name]

/-- A check fails in the same way. -/
theorem check_eq (h : s.Agrees s') (holds : Bool) (fault : TermFault) :
    s'.check holds fault = s.check holds fault := by
  rw [check, check, h.invalid_eq]

/-- Arguments are counted the same. -/
theorem checkArity_eq (h : s.Agrees s') (symbol : Symbol) (ts : List Term) :
    s'.checkArity symbol ts = s.checkArity symbol ts := by
  rw [checkArity, checkArity, h.check_eq]

/-- Questions about a symbol go to the same source. -/
theorem source_eq (h : s.Agrees s') (symbol : String) : s'.source symbol = s.source symbol := by
  rw [source, source, h.classification]

mutual

/-- A term has the same code. -/
theorem term_eq (h : s.Agrees s') (t : Term) : s'.term t = s.term t := by
  cases t with
  | param name => rw [term, term, h.paramCode_eq]
  | object name => rw [term, term, h.objectCode_eq]
  | int n => rw [term, term]
  | app symbol args =>
    simp only [term, terms_eq h args, h.require_eq, h.check_eq, h.checkArity_eq, h.source_eq]

/-- Terms have the same codes. -/
theorem terms_eq (h : s.Agrees s') (ts : List Term) : s'.terms ts = s.terms ts := by
  cases ts with
  | nil => rw [terms, terms]
  | cons t rest => rw [terms, terms, term_eq h t, terms_eq h rest]

end

/-- Arguments have the same code. -/
theorem args_eq (h : s.Agrees s') (ts : List Term) : s'.args ts = s.args ts := by
  rw [args, args, h.terms_eq]

/-- An atom has the same code. -/
theorem atom_eq (h : s.Agrees s') (symbol : String) (ts : List Term) (negated : Bool) :
    s'.atom symbol ts negated = s.atom symbol ts negated := by
  have hequality : ∀ codes, s'.equalityCode codes = s.equalityCode codes := by
    intro codes
    unfold equalityCode
    simp only [h.invalid_eq]
  have hholds : ∀ sym codes, s'.holdsCode sym codes = s.holdsCode sym codes := by
    intro sym codes
    unfold holdsCode
    rw [h.source_eq]
  simp only [atom, positiveAtom, h.terms_eq, hequality, h.require_eq, h.check_eq,
    h.checkArity_eq, hholds]

/-- A comparison has the same code. -/
theorem relation_eq (h : s.Agrees s') (op : Comparison) (lhs rhs : Term) :
    s'.relation op lhs rhs = s.relation op lhs rhs := by
  rw [relation, relation, h.term_eq, h.term_eq]

/-- The check of a planned constraint has the same code. -/
theorem constraintCheck_eq (h : s.Agrees s') (c : NumberedUse) :
    s'.constraintCheck c = s.constraintCheck c := by
  rw [constraintCheck, constraintCheck, h.args_eq]

/-- Conjuncts have the same conditions, even in another plan if that has the same constraints under
their numbers. -/
theorem conditions_eq (h : s.Agrees s') {plan plan' : ConstraintPlan} {ids : List Nat}
    (hplan : ∀ id ∈ ids, plan'.uses[id]? = plan.uses[id]?) (fs : List Formula) :
    s'.conditions plan' ids fs = s.conditions plan ids fs := by
  induction fs generalizing ids with
  | nil => rw [conditions, conditions]
  | cons f rest ih =>
    cases f with
    | true => rw [conditions, conditions, ih hplan] <;> simp
    | and parts => rw [conditions, conditions, ih hplan] <;> simp
    | atom symbol args negated => rw [conditions, conditions, h.atom_eq, ih hplan]
    | relation op lhs rhs => rw [conditions, conditions, h.relation_eq, ih hplan]
    | constraint use =>
      -- The first number is looked up here, and the others by the rest.
      have hplanned : s'.planned plan' ids use = s.planned plan ids use := by
        rw [planned, planned, h.invalid_eq]
        cases ids with
        | nil => rfl
        | cons id left =>
          rw [List.head?_cons, Option.bind_some, Option.bind_some, hplan id List.mem_cons_self]
      have hrest := ih fun id hid => hplan id (List.mem_of_mem_tail hid)
      simp only [conditions, hplanned, h.constraintCheck_eq, hrest]

/-- An effect is refused in the same way. -/
theorem refuse_eq (h : s.Agrees s') (e : Effect) (isFaulty : Bool) (fault : EffectFault) :
    s'.refuse e isFaulty fault = s.refuse e isFaulty fault := by
  rw [refuse, refuse, h.name]

/-- The value of an effect has the same code. -/
theorem effectValue_eq (h : s.Agrees s') (symbol : Symbol) (e : Effect) :
    s'.effectValue symbol e = s.effectValue symbol e := by
  simp only [effectValue, h.refuse_eq, h.term_eq, h.name]

/-- An effect has the same statement. -/
theorem effectLine_eq (h : s.Agrees s') (e : Effect) : s'.effectLine e = s.effectLine e := by
  simp only [effectLine, h.refuse_eq, h.require_eq, h.checkArity_eq, h.effectValue_eq, h.args_eq,
    h.classification]

/-- Effects have the same statements. -/
theorem effectLines_eq (h : s.Agrees s') (effects : List Effect) :
    s'.effectLines effects = s.effectLines effects := by
  induction effects with
  | nil => rw [effectLines, effectLines]
  | cons e rest ih => rw [effectLines, effectLines, h.effectLine_eq, ih]

/-- The same conjuncts have the same statements. -/
theorem preconditionCode_eq (h : s.Agrees s')
    (hconjuncts : s'.action.precondition.conjuncts = s.action.precondition.conjuncts)
    {plan plan' : ConstraintPlan} {ids : List Nat}
    (hplan : ∀ id ∈ ids, plan'.uses[id]? = plan.uses[id]?) :
    s'.preconditionCode plan' ids = s.preconditionCode plan ids := by
  rw [preconditionCode, preconditionCode, hconjuncts, h.conditions_eq hplan]

/-- The same effects have the same statements. -/
theorem effectCode_eq (h : s.Agrees s') (heffects : s'.action.effects = s.action.effects) :
    s'.effectCode = s.effectCode := by
  rw [effectCode, effectCode, heffects, h.effectLines_eq]

end Agrees

end CodeScope

namespace CodeSource

/-- Two actions have the same unit if their scopes agree, their conjuncts and effects are the same,
and so are the constraints under their numbers and the bindings that all units share. -/
theorem unitOfAction_eq {g g' : CodeSource} {a a' : Action} {ids : List Nat}
    (hscopes : CodeScope.Agrees ⟨g.model, a⟩ ⟨g'.model, a'⟩)
    (hconjuncts : a'.precondition.conjuncts = a.precondition.conjuncts)
    (heffects : a'.effects = a.effects)
    (hplan : ∀ id ∈ ids, g'.plan.uses[id]? = g.plan.uses[id]?) (hheader : g'.header = g.header) :
    g'.unitOfAction a' ids = g.unitOfAction a ids := by
  have hname : a'.name = a.name := hscopes.name
  have hparams : a'.params = a.params := hscopes.params
  rw [unitOfAction, unitOfAction, paramsText, paramsText, hname, hparams, hheader,
    hscopes.preconditionCode_eq hconjuncts hplan, hscopes.effectCode_eq heffects]

end CodeSource

end Grounder
