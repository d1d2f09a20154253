import Grounder.Proofs.Code.References
import Grounder.Proofs.Code.Unit

/-!
# `Grounder.Proofs.Code.Errors`: what can be wrong with an action

With the built-in templates, filling in a template never fails. So the unit of an action is made
unless something in the action itself has no code. `CodeScope.Faults` lists the errors that report
such a thing, each with what it found, and `failsOnlyAs_unitOfAction` says that there are no others:
above all, that the numbers of the constraints in a precondition are never used up, and that no
error is about a template.

The proofs follow the renderings. `Rendering.FailsOnlyAs` speaks of the errors of a rendering alone,
and passes through sequences (`FailsOnlyAs.bind`), so each rendering has one lemma, made of those of
its parts.
-/

set_option autoImplicit false

namespace Grounder

open Template Rendering Proofs.Support

/-! ### Errors of renderings -/

namespace Rendering

variable {α β : Type} {P : CompileError → Prop} {r : Rendering α}

/-- With the built-in templates, all errors of a rendering are of one kind. -/
def FailsOnlyAs (P : CompileError → Prop) (r : Rendering α) : Prop :=
  ∀ e, r.result Overrides.none = .error e → P e

/-- A rendering with a result has no error. -/
theorem failsOnlyAs_of_ok {a : α} (h : r.result Overrides.none = .ok a) : r.FailsOnlyAs P := by
  intro e he
  rw [h] at he
  cases he

/-- A value has no error. -/
theorem failsOnlyAs_pure (a : α) : (pure a : Rendering α).FailsOnlyAs P := failsOnlyAs_of_ok rfl

/-- A rendering that ends with an error has no other one. -/
theorem failsOnlyAs_fail {e : CompileError} (h : P e) : (fail e : Rendering α).FailsOnlyAs P := by
  intro e' he'
  cases he'
  exact h

/-- A sequence fails where its first part fails, or goes on with the result of this part and fails
where its second part does. -/
theorem FailsOnlyAs.bind {f : α → Rendering β} (hr : r.FailsOnlyAs P)
    (hf : ∀ a, r.result Overrides.none = .ok a → (f a).FailsOnlyAs P) :
    (r >>= f).FailsOnlyAs P := by
  intro e he
  rw [result_bind] at he
  cases hresult : r.result Overrides.none with
  | error e' =>
    rw [hresult] at he
    cases he
    exact hr e hresult
  | ok a =>
    rw [hresult] at he
    exact hf a hresult e he

/-- What is made of a result fails where the rendering fails. -/
theorem FailsOnlyAs.map (f : α → β) (hr : r.FailsOnlyAs P) : (f <$> r).FailsOnlyAs P :=
  hr.bind fun a _ => failsOnlyAs_pure (f a)

end Rendering

/-! ### Errors of an action -/

namespace CodeScope

variable {s : CodeScope} {plan : ConstraintPlan}

/-- The errors that report something in the action for which there is no code. -/
inductive Faults (s : CodeScope) : CompileError → Prop where
  /-- A symbol that is not declared. -/
  | unknownSymbol {symbol : String} :
    s.model.symbols.get? symbol = none → Faults s (.ground (.unknownSymbol symbol s.action.name))
  /-- A parameter that the action does not have. -/
  | unknownParameter {param : String} :
    s.action.paramPosition? param = none →
    Faults s (.ground (.unknownParameter s.action.name param))
  /-- An effect of the action that has a shape without code. -/
  | effectShape {e : Effect} {fault : EffectFault} :
    e ∈ s.action.effects → Faults s (.ground (.effectShape s.action.name e.text fault))
  /-- An object without an id. -/
  | unknownObject {name : String} :
    s.model.objects.id? name = none → Faults s (s.invalid (.unknownObject name))
  /-- A predicate in the place of a function. -/
  | predicateAsTerm {symbol : String} {sym : Symbol} :
    s.model.symbols.get? symbol = some sym → sym.isPredicate = true →
    Faults s (s.invalid (.predicateAsTerm symbol))
  /-- A function in the place of a predicate. -/
  | functionAsAtom {symbol : String} {sym : Symbol} :
    s.model.symbols.get? symbol = some sym → sym.isPredicate = false →
    Faults s (s.invalid (.functionAsAtom symbol))
  /-- A wrong number of arguments. -/
  | argumentCount {symbol : String} {expected given : Nat} :
    expected ≠ given → Faults s (s.invalid (.argumentCount symbol expected given))

/-- Looking up a symbol fails if it is not declared. -/
theorem failsOnlyAs_require (symbol : String) : (s.require symbol).FailsOnlyAs s.Faults := by
  rw [require, SymbolTable.require]
  cases hsymbol : s.model.symbols.get? symbol with
  | none => exact failsOnlyAs_fail (.unknownSymbol hsymbol)
  | some sym => exact failsOnlyAs_pure sym

/-- A check fails with its fault, if its condition does not hold. -/
theorem failsOnlyAs_check {holds : Bool} {fault : TermFault}
    (h : holds = false → s.Faults (s.invalid fault)) : (s.check holds fault).FailsOnlyAs s.Faults := by
  cases holds with
  | false => exact failsOnlyAs_fail (h rfl)
  | true => exact failsOnlyAs_pure ()

/-- The check of an arity fails if the arity is wrong. -/
theorem failsOnlyAs_checkArity (sym : Symbol) (args : List Term) :
    (s.checkArity sym args).FailsOnlyAs s.Faults :=
  failsOnlyAs_check fun h => .argumentCount (beq_eq_false_iff_ne.1 h)

/-! ### Terms -/

/-- A parameter has code if the action has it. -/
theorem failsOnlyAs_paramCode (name : String) : (s.paramCode name).FailsOnlyAs s.Faults := by
  rw [paramCode]
  cases hposition : s.action.paramPosition? name with
  | none => exact failsOnlyAs_fail (.unknownParameter hposition)
  | some position => exact failsOnlyAs_pure _

/-- An object has code if it has an id. -/
theorem failsOnlyAs_objectCode (name : String) : (s.objectCode name).FailsOnlyAs s.Faults := by
  rw [objectCode]
  cases hid : s.model.objects.id? name with
  | none => exact failsOnlyAs_fail (.unknownObject hid)
  | some id => exact failsOnlyAs_pure _

mutual

/-- The errors of a term. -/
theorem failsOnlyAs_term (t : Term) : (s.term t).FailsOnlyAs s.Faults := by
  cases t with
  | param name =>
    rw [term]
    exact failsOnlyAs_paramCode name
  | object name =>
    rw [term]
    exact failsOnlyAs_objectCode name
  | int n =>
    rw [term]
    exact failsOnlyAs_pure _
  | app symbol args =>
    rw [term]
    refine (failsOnlyAs_require symbol).bind fun sym hsym => ?_
    -- The symbol is declared now, and the next check refuses it if it is a predicate.
    have hdeclared := result_require_eq_ok.1 hsym
    refine (failsOnlyAs_check fun h => ?_).bind fun _ _ => ?_
    · exact .predicateAsTerm hdeclared (by simpa using h)
    refine (failsOnlyAs_checkArity sym args).bind fun _ _ => ?_
    refine (failsOnlyAs_terms args).bind fun codes _ => ?_
    exact failsOnlyAs_of_ok (result_fill_termValue _ _ _)

/-- The errors of terms are those of each of them. -/
theorem failsOnlyAs_terms (ts : List Term) : (s.terms ts).FailsOnlyAs s.Faults := by
  cases ts with
  | nil =>
    rw [terms]
    exact failsOnlyAs_pure []
  | cons t rest =>
    rw [terms]
    refine (failsOnlyAs_term t).bind fun code _ => ?_
    exact (failsOnlyAs_terms rest).bind fun codes _ => failsOnlyAs_pure _

end

/-- The errors of arguments are those of their terms. -/
theorem failsOnlyAs_args (ts : List Term) : (s.args ts).FailsOnlyAs s.Faults :=
  (failsOnlyAs_terms ts).map joined

/-! ### Preconditions -/

/-- An equality has code if it compares two terms. -/
theorem failsOnlyAs_equalityCode (codes : List String) :
    (s.equalityCode codes).FailsOnlyAs s.Faults := by
  match codes with
  | [_, _] => exact failsOnlyAs_pure _
  | [] => exact failsOnlyAs_fail (.argumentCount (by simp))
  | [_] => exact failsOnlyAs_fail (.argumentCount (by simp))
  | _ :: _ :: _ :: _ => exact failsOnlyAs_fail (.argumentCount (by simp))

/-- The errors of an atom. -/
theorem failsOnlyAs_atom (symbol : String) (ts : List Term) (negated : Bool) :
    (s.atom symbol ts negated).FailsOnlyAs s.Faults := by
  rw [atom]
  refine FailsOnlyAs.bind ?_ fun code _ => failsOnlyAs_pure _
  rw [positiveAtom]
  refine (failsOnlyAs_terms ts).bind fun codes _ => ?_
  -- Equality is not looked up, and its arity is checked where its code is made.
  by_cases hequality : symbol = equality
  · rw [if_pos hequality]
    exact failsOnlyAs_equalityCode codes
  · rw [if_neg hequality]
    refine (failsOnlyAs_require symbol).bind fun sym hsym => ?_
    have hdeclared := result_require_eq_ok.1 hsym
    refine (failsOnlyAs_check fun h => .functionAsAtom hdeclared h).bind fun _ _ => ?_
    refine (failsOnlyAs_checkArity sym ts).bind fun _ _ => ?_
    obtain ⟨code, hcode⟩ := exists_holdsCode (s := s) sym codes
    exact failsOnlyAs_of_ok hcode

/-- The errors of a comparison are those of its sides. -/
theorem failsOnlyAs_relation (op : Comparison) (lhs rhs : Term) :
    (s.relation op lhs rhs).FailsOnlyAs s.Faults := by
  rw [relation]
  refine (failsOnlyAs_term lhs).bind fun l _ => ?_
  exact (failsOnlyAs_term rhs).bind fun r _ => failsOnlyAs_pure _

/-- The errors of a constraint are those of its arguments. -/
theorem failsOnlyAs_constraintCheck (c : NumberedUse) :
    (s.constraintCheck c).FailsOnlyAs s.Faults := by
  rw [constraintCheck]
  refine (failsOnlyAs_args c.args).bind fun codes _ => ?_
  cases c.isStatic with
  | true => exact failsOnlyAs_of_ok (result_fill_staticConstraintCheck _ _)
  | false => exact failsOnlyAs_of_ok (result_fill_constraintCheck _ _)

/-- The errors of conjuncts are those of each of them, if there is a number for every constraint. -/
theorem failsOnlyAs_conditions (fs : List Formula) {ids : List Nat}
    (hids : List.Forall₂ (Numbers plan) ids (fs.filterMap Formula.use?)) :
    (s.conditions plan ids fs).FailsOnlyAs s.Faults := by
  induction fs generalizing ids with
  | nil => exact failsOnlyAs_pure []
  | cons f rest ih =>
    cases f with
    | true => exact ih hids
    | and parts => exact ih hids
    | atom symbol args negated =>
      rw [conditions]
      refine (failsOnlyAs_atom symbol args negated).bind fun code _ => ?_
      exact (ih hids).bind fun codes _ => failsOnlyAs_pure _
    | relation op lhs rhs =>
      rw [conditions]
      refine (failsOnlyAs_relation op lhs rhs).bind fun code _ => ?_
      exact (ih hids).bind fun codes _ => failsOnlyAs_pure _
    | constraint use =>
      -- The first number belongs to this constraint, so it was planned.
      obtain ⟨c, left, rfl, -, -, hplanned, hleft⟩ := exists_planned (s := s) hids
      rw [conditions, hplanned]
      refine (failsOnlyAs_pure c).bind fun c _ => ?_
      refine (failsOnlyAs_constraintCheck c).bind fun code _ => ?_
      exact (ih hleft).bind fun codes _ => failsOnlyAs_pure _

/-- The errors of a precondition are those of its conjuncts. -/
theorem failsOnlyAs_preconditionCode {ids : List Nat}
    (hids : List.Forall₂ (Numbers plan) ids s.action.precondition.uses) :
    (s.preconditionCode plan ids).FailsOnlyAs s.Faults := by
  rw [preconditionCode]
  exact (failsOnlyAs_conditions _ hids).bind fun codes _ => failsOnlyAs_pure _

/-! ### Effects -/

section Effect

variable {e : Effect} (he : e ∈ s.action.effects)
include he

/-- A step that refuses a fault of an effect of the action fails with this fault. -/
theorem failsOnlyAs_refuse (isFaulty : Bool) (fault : EffectFault) :
    (s.refuse e isFaulty fault).FailsOnlyAs s.Faults := by
  cases isFaulty with
  | false => exact failsOnlyAs_pure ()
  | true => exact failsOnlyAs_fail (.effectShape he)

/-- The errors of the value of an effect. -/
theorem failsOnlyAs_effectValue (sym : Symbol) :
    (s.effectValue sym e).FailsOnlyAs s.Faults := by
  rw [effectValue]
  cases sym.isPredicate with
  | true => exact (failsOnlyAs_refuse he _ _).bind fun _ _ => failsOnlyAs_pure _
  | false =>
    refine (failsOnlyAs_refuse he _ _).bind fun _ _ => ?_
    cases e.value with
    | some value => exact failsOnlyAs_term value
    | none => exact failsOnlyAs_fail (.effectShape he)

/-- The errors of an effect. -/
theorem failsOnlyAs_effectLine : (s.effectLine e).FailsOnlyAs s.Faults := by
  rw [effectLine]
  refine (failsOnlyAs_refuse he _ _).bind fun _ _ => ?_
  refine (failsOnlyAs_require e.symbol).bind fun sym _ => ?_
  refine (failsOnlyAs_refuse he _ _).bind fun _ _ => ?_
  refine (failsOnlyAs_checkArity sym e.args).bind fun _ _ => ?_
  refine (failsOnlyAs_refuse he _ _).bind fun _ _ => ?_
  refine (failsOnlyAs_effectValue he sym).bind fun value _ => ?_
  refine (failsOnlyAs_args e.args).bind fun codes _ => ?_
  refine FailsOnlyAs.bind ?_ fun code _ => failsOnlyAs_pure _
  exact failsOnlyAs_of_ok (result_fill_effect _ _ _ _)

end Effect

/-- The errors of effects of the action are those of each of them. -/
theorem failsOnlyAs_effectLines (effects : List Effect) (h : effects ⊆ s.action.effects) :
    (s.effectLines effects).FailsOnlyAs s.Faults := by
  induction effects with
  | nil => exact failsOnlyAs_pure []
  | cons e rest ih =>
    obtain ⟨he, hrest⟩ := List.cons_subset.1 h
    rw [effectLines]
    refine (failsOnlyAs_effectLine he).bind fun line _ => ?_
    exact (ih hrest).bind fun lines _ => failsOnlyAs_pure _

/-- The errors of all effects of the action. -/
theorem failsOnlyAs_effectCode : s.effectCode.FailsOnlyAs s.Faults := by
  rw [effectCode]
  exact (failsOnlyAs_effectLines _ fun _ he => he).bind fun lines _ => failsOnlyAs_pure _

end CodeScope

/-! ### Units -/

/-- The errors of the unit of an action are those of its precondition and its effects. -/
theorem CodeSource.failsOnlyAs_unitOfAction {g : CodeSource} {a : Action} {ids : List Nat}
    (hids : List.Forall₂ (CodeScope.Numbers g.plan) ids a.precondition.uses) :
    (g.unitOfAction a ids).FailsOnlyAs (⟨g.model, a⟩ : CodeScope).Faults := by
  rw [unitOfAction]
  refine (CodeScope.failsOnlyAs_preconditionCode (s := ⟨g.model, a⟩) hids).bind
    fun preconditions _ => ?_
  refine CodeScope.failsOnlyAs_effectCode.bind fun effects _ => ?_
  refine FailsOnlyAs.bind ?_ fun content _ => failsOnlyAs_pure _
  simp only [header, List.cons_append, List.nil_append]
  exact failsOnlyAs_of_ok (result_fill_action _ _ _ _ _ _ _ _)

end Grounder
