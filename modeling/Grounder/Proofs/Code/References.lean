import Grounder.Proofs.Code.Effects
import Grounder.Proofs.Code.Precondition
import Grounder.Proofs.Task.Subterms

/-!
# `Grounder.Proofs.Code.References`: what rendered terms refer to

A term can be rendered if everything in it refers to something: a parameter to one of the action, an
object to an id, and an applied symbol to a declared function of the right arity (`Resolves`). An
atom also needs a predicate (`HasPredicate`). The theorems say so of each stage:

* `resolves_of_term` and `exists_term`, by induction on terms.
* `resolves_of_conditions` and `exists_conditions`, by induction on the conjuncts.
* `resolves_of_effectCode`, by induction on the effects.

That everything refers to something is needed whatever the templates are. That this is enough, only
with the built-in ones.
-/

set_option autoImplicit false

namespace Grounder

namespace CodeScope

open Template Rendering Proofs.Support

variable {s : CodeScope} {overrides : Overrides} {plan : ConstraintPlan}

/-- A term refers to something, as far as its outermost part goes. -/
def Resolves (s : CodeScope) : Term → Prop
  | .param name => ∃ position, s.action.paramPosition? name = some position
  | .object name => ∃ id, s.model.objects.id? name = some id
  | .int _ => True
  | .app symbol args => ∃ sym, s.model.symbols.get? symbol = some sym ∧ sym.isPredicate = false ∧
      sym.arity = args.length

/-- An atom compares two objects, or applies a declared predicate of its arity. Nothing is asked of
other formulas. -/
def HasPredicate (s : CodeScope) : Formula → Prop
  | .atom symbol args _ =>
    if symbol = equality then args.length = 2
    else ∃ sym, s.model.symbols.get? symbol = some sym ∧ sym.isPredicate = true ∧
      sym.arity = args.length
  | _ => True

/-- A check succeeds if its condition holds. -/
@[simp] theorem result_check_eq_ok {holds : Bool} {fault : TermFault} {u : Unit} :
    (s.check holds fault).result overrides = .ok u ↔ holds = true := by
  rw [check]
  cases holds <;> simp

/-- The check of an arity succeeds if the arity is right. -/
@[simp] theorem result_checkArity_eq_ok {sym : Symbol} {args : List Term} {u : Unit} :
    (s.checkArity sym args).result overrides = .ok u ↔ sym.arity = args.length := by
  rw [checkArity, result_check_eq_ok, beq_iff_eq]

/-! ### Terms -/

/-- A parameter that is rendered belongs to the action. -/
theorem exists_position_of_paramCode {name code : String}
    (h : (s.paramCode name).result overrides = .ok code) :
    ∃ position, s.action.paramPosition? name = some position := by
  rw [paramCode] at h
  cases hposition : s.action.paramPosition? name with
  | none => rw [hposition] at h; cases h
  | some position => exact ⟨position, rfl⟩

/-- An object that is rendered has an id. -/
theorem exists_id_of_objectCode {name code : String}
    (h : (s.objectCode name).result overrides = .ok code) :
    ∃ id, s.model.objects.id? name = some id := by
  rw [objectCode] at h
  cases hid : s.model.objects.id? name with
  | none => rw [hid] at h; cases h
  | some id => exact ⟨id, rfl⟩

mutual

/-- Everything in a rendered term refers to something. -/
theorem resolves_of_term (t : Term) {code : String} (h : (s.term t).result overrides = .ok code) :
    ∀ u ∈ t.subterms, s.Resolves u := by
  cases t with
  | param name =>
    rw [Term.subterms, List.forall_mem_singleton]
    rw [term] at h
    exact exists_position_of_paramCode h
  | object name =>
    rw [Term.subterms, List.forall_mem_singleton]
    rw [term] at h
    exact exists_id_of_objectCode h
  | int n =>
    rw [Term.subterms, List.forall_mem_singleton]
    trivial
  | app symbol args =>
    simp only [term, result_bind_eq_ok, result_require_eq_ok, result_check_eq_ok,
      result_checkArity_eq_ok, Bool.not_eq_true'] at h
    obtain ⟨sym, hsym, -, hfunction, -, harity, codes, hcodes, -⟩ := h
    rw [Term.subterms, List.forall_mem_cons]
    exact ⟨⟨sym, hsym, hfunction, harity⟩, resolves_of_terms args hcodes⟩

/-- Everything in rendered terms refers to something. -/
theorem resolves_of_terms (ts : List Term) {codes : List String}
    (h : (s.terms ts).result overrides = .ok codes) :
    ∀ u ∈ Term.subtermsOfAll ts, s.Resolves u := by
  cases ts with
  | nil => exact fun u hu => absurd hu List.not_mem_nil
  | cons t rest =>
    simp only [terms, result_bind_eq_ok] at h
    obtain ⟨code, hcode, codes, hcodes, -⟩ := h
    rw [Term.subtermsOfAll, List.forall_mem_append]
    exact ⟨resolves_of_term t hcode, resolves_of_terms rest hcodes⟩

end

mutual

/-- A term is rendered if everything in it refers to something. -/
theorem exists_term (t : Term) (h : ∀ u ∈ t.subterms, s.Resolves u) :
    ∃ code, (s.term t).result Overrides.none = .ok code := by
  cases t with
  | param name =>
    rw [Term.subterms, List.forall_mem_singleton] at h
    obtain ⟨position, hposition⟩ := h
    rw [term, paramCode, hposition]
    exact ⟨_, rfl⟩
  | object name =>
    rw [Term.subterms, List.forall_mem_singleton] at h
    obtain ⟨id, hid⟩ := h
    rw [term, objectCode, hid]
    exact ⟨_, rfl⟩
  | int n => exact ⟨_, rfl⟩
  | app symbol args =>
    rw [Term.subterms, List.forall_mem_cons] at h
    obtain ⟨⟨sym, hsym, hfunction, harity⟩, hargs⟩ := h
    obtain ⟨codes, hcodes⟩ := exists_terms args hargs
    simp only [term, result_bind_eq_ok, result_require_eq_ok, result_check_eq_ok,
      result_checkArity_eq_ok, Bool.not_eq_true']
    exact ⟨_, sym, hsym, (), hfunction, (), harity, codes, hcodes, result_fill_termValue _ _ _⟩

/-- Terms are rendered if everything in them refers to something. -/
theorem exists_terms (ts : List Term) (h : ∀ u ∈ Term.subtermsOfAll ts, s.Resolves u) :
    ∃ codes, (s.terms ts).result Overrides.none = .ok codes := by
  cases ts with
  | nil => exact ⟨[], rfl⟩
  | cons t rest =>
    rw [Term.subtermsOfAll, List.forall_mem_append] at h
    obtain ⟨code, hcode⟩ := exists_term t h.1
    obtain ⟨codes, hcodes⟩ := exists_terms rest h.2
    simp only [terms, result_bind_eq_ok]
    exact ⟨_, code, hcode, codes, hcodes, rfl⟩

end

/-! ### Conditions -/

/-- The code of an equality takes two arguments. -/
theorem length_of_equalityCode {codes : List String} {code : String}
    (h : (s.equalityCode codes).result overrides = .ok code) : codes.length = 2 := by
  match codes with
  | [_, _] => rfl
  | [] => cases h
  | [_] => cases h
  | _ :: _ :: _ :: _ => cases h

/-- There are as many codes as terms. -/
theorem length_of_terms {ts : List Term} {codes : List String}
    (h : (s.terms ts).result overrides = .ok codes) : codes.length = ts.length := by
  induction ts generalizing codes with
  | nil =>
    cases h
    rfl
  | cons t rest ih =>
    simp only [terms, result_bind_eq_ok] at h
    obtain ⟨code, -, codes, hcodes, h⟩ := h
    cases h
    rw [List.length_cons, List.length_cons, ih hcodes]

/-- The built-in templates have a question for every number of arguments. -/
theorem exists_holdsCode (sym : Symbol) (codes : List String) :
    ∃ code, (s.holdsCode sym codes).result Overrides.none = .ok code := by
  match codes with
  | [code] => exact ⟨_, result_fill_holdsUnary _ _ _⟩
  | [] => exact ⟨_, result_fill_holdsNary _ _ _⟩
  | _ :: _ :: _ => exact ⟨_, result_fill_holdsNary _ _ _⟩

/-- A rendered atom has a predicate, and everything in it refers to something. -/
theorem resolves_of_atom {symbol : String} {args : List Term} {negated : Bool} {code : String}
    (h : (s.atom symbol args negated).result overrides = .ok code) :
    s.HasPredicate (.atom symbol args negated) ∧
      ∀ u ∈ (Formula.atom symbol args negated).terms, s.Resolves u := by
  simp only [atom, positiveAtom, result_bind_eq_ok] at h
  obtain ⟨code, ⟨codes, hcodes, hcode⟩, -⟩ := h
  refine ⟨?_, resolves_of_terms args hcodes⟩
  -- Equality is not looked up. It asks for two codes, and there is one for each term.
  rw [HasPredicate]
  split at hcode
  · rename_i heq
    rw [if_pos heq, ← length_of_terms hcodes]
    exact length_of_equalityCode hcode
  · rename_i hne
    simp only [result_bind_eq_ok, result_require_eq_ok, result_check_eq_ok,
      result_checkArity_eq_ok] at hcode
    obtain ⟨sym, hsym, -, hpredicate, -, harity, -⟩ := hcode
    rw [if_neg hne]
    exact ⟨sym, hsym, hpredicate, harity⟩

/-- An atom is rendered if it has a predicate and everything in it refers to something. -/
theorem exists_atom {symbol : String} {args : List Term} {negated : Bool}
    (hpredicate : s.HasPredicate (.atom symbol args negated))
    (h : ∀ u ∈ (Formula.atom symbol args negated).terms, s.Resolves u) :
    ∃ code, (s.atom symbol args negated).result Overrides.none = .ok code := by
  obtain ⟨codes, hcodes⟩ := exists_terms args h
  -- The code without the sign.
  obtain ⟨code, hcode⟩ : ∃ code, (s.positiveAtom symbol args).result Overrides.none = .ok code := by
    rw [HasPredicate] at hpredicate
    split at hpredicate
    · rename_i heq
      obtain ⟨l, r, rfl⟩ := List.length_eq_two.1 ((length_of_terms hcodes).trans hpredicate)
      simp only [positiveAtom, result_bind_eq_ok, if_pos heq]
      exact ⟨_, _, hcodes, rfl⟩
    · rename_i hne
      obtain ⟨sym, hsym, hpredicate, harity⟩ := hpredicate
      obtain ⟨code, hcode⟩ := exists_holdsCode (s := s) sym codes
      simp only [positiveAtom, result_bind_eq_ok, if_neg hne, result_require_eq_ok,
        result_check_eq_ok, result_checkArity_eq_ok]
      exact ⟨code, codes, hcodes, sym, hsym, (), hpredicate, (), harity, hcode⟩
  simp only [atom, result_bind_eq_ok]
  exact ⟨_, code, hcode, rfl⟩

/-- Everything in a rendered comparison refers to something. -/
theorem resolves_of_relation {op : Comparison} {lhs rhs : Term} {code : String}
    (h : (s.relation op lhs rhs).result overrides = .ok code) :
    ∀ u ∈ (Formula.relation op lhs rhs).terms, s.Resolves u := by
  simp only [relation, result_bind_eq_ok] at h
  obtain ⟨l, hl, r, hr, -⟩ := h
  simp only [Formula.terms, Term.subtermsOfAll, List.append_nil, List.forall_mem_append]
  exact ⟨resolves_of_term lhs hl, resolves_of_term rhs hr⟩

/-- A comparison is rendered if everything in it refers to something. -/
theorem exists_relation {op : Comparison} {lhs rhs : Term}
    (h : ∀ u ∈ (Formula.relation op lhs rhs).terms, s.Resolves u) :
    ∃ code, (s.relation op lhs rhs).result Overrides.none = .ok code := by
  simp only [Formula.terms, Term.subtermsOfAll, List.append_nil, List.forall_mem_append] at h
  obtain ⟨l, hl⟩ := exists_term lhs h.1
  obtain ⟨r, hr⟩ := exists_term rhs h.2
  simp only [relation, result_bind_eq_ok]
  exact ⟨_, l, hl, r, hr, rfl⟩

/-- Everything in a rendered constraint refers to something. -/
theorem resolves_of_constraintCheck {c : NumberedUse} {code : String}
    (h : (s.constraintCheck c).result overrides = .ok code) :
    ∀ u ∈ Term.subtermsOfAll c.args, s.Resolves u := by
  simp only [constraintCheck, args, result_bind_eq_ok, result_map_eq_ok] at h
  obtain ⟨-, ⟨codes, hcodes, -⟩, -⟩ := h
  exact resolves_of_terms c.args hcodes

/-- A constraint is rendered if everything in it refers to something. -/
theorem exists_constraintCheck {c : NumberedUse}
    (h : ∀ u ∈ Term.subtermsOfAll c.args, s.Resolves u) :
    ∃ code, (s.constraintCheck c).result Overrides.none = .ok code := by
  obtain ⟨codes, hcodes⟩ := exists_terms c.args h
  simp only [constraintCheck, args, result_bind_eq_ok, result_map_eq_ok]
  cases c.isStatic with
  | true => exact ⟨_, _, ⟨codes, hcodes, rfl⟩, result_fill_staticConstraintCheck _ _⟩
  | false => exact ⟨_, _, ⟨codes, hcodes, rfl⟩, result_fill_constraintCheck _ _⟩

/-- Rendered conjuncts have predicates, and everything in them refers to something. -/
theorem resolves_of_conditions (fs : List Formula) (hfs : ∀ f ∈ fs, f.IsConjunct) {ids : List Nat}
    (hids : List.Forall₂ (Numbers plan) ids (fs.filterMap Formula.use?)) {codes : List String}
    (h : (s.conditions plan ids fs).result overrides = .ok codes) :
    ∀ f ∈ fs, s.HasPredicate f ∧ ∀ u ∈ f.terms, s.Resolves u := by
  induction fs generalizing ids codes with
  | nil => exact fun f hf => absurd hf List.not_mem_nil
  | cons f rest ih =>
    rw [List.forall_mem_cons] at hfs ⊢
    cases f with
    | true => exact hfs.1.elim
    | and parts => exact hfs.1.elim
    | atom symbol args negated =>
      simp only [conditions, result_bind_eq_ok] at h
      obtain ⟨code, hcode, codes, hcodes, -⟩ := h
      exact ⟨resolves_of_atom hcode, ih hfs.2 hids hcodes⟩
    | relation op lhs rhs =>
      simp only [conditions, result_bind_eq_ok] at h
      obtain ⟨code, hcode, codes, hcodes, -⟩ := h
      exact ⟨⟨trivial, resolves_of_relation hcode⟩, ih hfs.2 hids hcodes⟩
    | constraint use =>
      -- The planned constraint has the terms of the use.
      obtain ⟨c, left, rfl, -, hargs, hplanned, hleft⟩ := exists_planned (s := s) hids
      simp only [conditions, hplanned, result_bind_eq_ok, result_pure, Except.ok.injEq] at h
      obtain ⟨_, rfl, code, hcode, codes, hcodes, -⟩ := h
      have hcheck := resolves_of_constraintCheck hcode
      rw [hargs] at hcheck
      exact ⟨⟨trivial, hcheck⟩, ih hfs.2 hleft hcodes⟩

/-- Conjuncts are rendered if they have predicates and everything in them refers to something. -/
theorem exists_conditions (fs : List Formula) (hfs : ∀ f ∈ fs, f.IsConjunct) {ids : List Nat}
    (hids : List.Forall₂ (Numbers plan) ids (fs.filterMap Formula.use?))
    (h : ∀ f ∈ fs, s.HasPredicate f ∧ ∀ u ∈ f.terms, s.Resolves u) :
    ∃ codes, (s.conditions plan ids fs).result Overrides.none = .ok codes := by
  induction fs generalizing ids with
  | nil => exact ⟨[], rfl⟩
  | cons f rest ih =>
    rw [List.forall_mem_cons] at hfs h
    obtain ⟨⟨hpredicate, hresolves⟩, hrest⟩ := h
    cases f with
    | true => exact hfs.1.elim
    | and parts => exact hfs.1.elim
    | atom symbol args negated =>
      obtain ⟨code, hcode⟩ := exists_atom hpredicate hresolves
      obtain ⟨codes, hcodes⟩ := ih hfs.2 hids hrest
      simp only [conditions, result_bind_eq_ok]
      exact ⟨_, code, hcode, codes, hcodes, rfl⟩
    | relation op lhs rhs =>
      obtain ⟨code, hcode⟩ := exists_relation hresolves
      obtain ⟨codes, hcodes⟩ := ih hfs.2 hids hrest
      simp only [conditions, result_bind_eq_ok]
      exact ⟨_, code, hcode, codes, hcodes, rfl⟩
    | constraint use =>
      obtain ⟨c, left, rfl, -, hargs, hplanned, hleft⟩ := exists_planned (s := s) hids
      obtain ⟨code, hcode⟩ := exists_constraintCheck (c := c) (by rwa [hargs])
      obtain ⟨codes, hcodes⟩ := ih hfs.2 hleft hrest
      simp only [conditions, hplanned, result_bind_eq_ok, result_pure, Except.ok.injEq]
      exact ⟨_, c, rfl, code, hcode, codes, hcodes, rfl⟩

/-- A precondition in which everything refers to something, as far as its conjuncts go. -/
def ResolvesPrecondition (s : CodeScope) : Prop :=
  (∀ f ∈ s.action.precondition.conjuncts, s.HasPredicate f) ∧
    ∀ u ∈ s.action.precondition.terms, s.Resolves u

/-- The precondition in terms of its conjuncts. -/
theorem resolvesPrecondition_iff : s.ResolvesPrecondition ↔
    ∀ f ∈ s.action.precondition.conjuncts, s.HasPredicate f ∧ ∀ u ∈ f.terms, s.Resolves u := by
  constructor
  · rintro ⟨hpredicate, hterms⟩ f hf
    exact ⟨hpredicate f hf, fun u hu => hterms u ((Formula.mem_terms_iff _).2 ⟨f, hf, hu⟩)⟩
  · intro h
    refine ⟨fun f hf => (h f hf).1, fun u hu => ?_⟩
    obtain ⟨f, hf, hu⟩ := (Formula.mem_terms_iff _).1 hu
    exact (h f hf).2 u hu

section Precondition

variable {ids : List Nat} (hids : List.Forall₂ (Numbers plan) ids s.action.precondition.uses)
include hids

/-- In a rendered precondition, everything refers to something. -/
theorem resolvesPrecondition_of_code {code : String}
    (h : (s.preconditionCode plan ids).result overrides = .ok code) : s.ResolvesPrecondition := by
  simp only [preconditionCode, result_bind_eq_ok] at h
  obtain ⟨codes, hcodes, -⟩ := h
  exact resolvesPrecondition_iff.2 (resolves_of_conditions _
    (Formula.isConjunct_of_mem_conjuncts _) hids hcodes)

/-- A precondition is rendered if everything in it refers to something. -/
theorem exists_preconditionCode (h : s.ResolvesPrecondition) :
    ∃ code, (s.preconditionCode plan ids).result Overrides.none = .ok code := by
  obtain ⟨codes, hcodes⟩ := exists_conditions _ (Formula.isConjunct_of_mem_conjuncts _) hids
    (resolvesPrecondition_iff.1 h)
  simp only [preconditionCode, result_bind_eq_ok]
  exact ⟨_, codes, hcodes, rfl⟩

end Precondition

/-! ### Effects -/

/-- Everything in the value of a rendered effect refers to something. -/
theorem resolves_of_effectValue {sym : Symbol} {e : Effect} {code : String}
    (h : (s.effectValue sym e).result overrides = .ok code) :
    ∀ u ∈ Term.subtermsOfAll e.value.toList, s.Resolves u := by
  rw [effectValue] at h
  cases hvalue : e.value with
  | none => exact fun u hu => absurd hu List.not_mem_nil
  | some value =>
    rw [Option.toList_some, Term.subtermsOfAll, Term.subtermsOfAll, List.append_nil]
    cases hpredicate : sym.isPredicate with
    | true =>
      -- A predicate takes no value.
      simp [hpredicate, hvalue] at h
    | false =>
      simp only [hpredicate, Bool.false_eq_true, if_false, hvalue, result_bind_eq_ok] at h
      obtain ⟨-, -, hcode⟩ := h
      exact resolves_of_term value hcode

/-- Everything in a rendered effect refers to something. -/
theorem resolves_of_effectLine {e : Effect} {line : String}
    (h : (s.effectLine e).result overrides = .ok line) : ∀ u ∈ e.terms, s.Resolves u := by
  simp only [effectLine, result_bind_eq_ok, result_require_eq_ok, result_refuse_eq_ok, args,
    result_map_eq_ok] at h
  obtain ⟨-, hcondition, sym, -, -, -, -, -, -, -, value, hvalue, -, ⟨codes, hcodes, -⟩, -⟩ := h
  -- There is no condition, so the terms are those of the arguments and of the value.
  rw [Option.isSome_eq_false_iff, Option.isNone_iff_eq_none] at hcondition
  rw [Effect.terms, hcondition, Term.subtermsOfAll_append, Option.toList_none, List.flatMap_nil,
    List.append_nil, List.forall_mem_append]
  exact ⟨resolves_of_terms e.args hcodes, resolves_of_effectValue hvalue⟩

/-- Everything in rendered effects refers to something. -/
theorem resolves_of_effectLines (effects : List Effect) {lines : List String}
    (h : (s.effectLines effects).result overrides = .ok lines) :
    ∀ e ∈ effects, ∀ u ∈ e.terms, s.Resolves u := by
  induction effects generalizing lines with
  | nil => exact fun e he => absurd he List.not_mem_nil
  | cons e rest ih =>
    simp only [effectLines, result_bind_eq_ok] at h
    obtain ⟨line, hline, lines, hlines, -⟩ := h
    rw [List.forall_mem_cons]
    exact ⟨resolves_of_effectLine hline, ih hlines⟩

/-- Everything in the effects of an action with a rendered unit refers to something. -/
theorem resolves_of_effectCode {code : String} (h : s.effectCode.result overrides = .ok code) :
    ∀ e ∈ s.action.effects, ∀ u ∈ e.terms, s.Resolves u := by
  simp only [effectCode, result_bind_eq_ok] at h
  obtain ⟨lines, hlines, -⟩ := h
  exact resolves_of_effectLines _ hlines

end CodeScope

end Grounder
