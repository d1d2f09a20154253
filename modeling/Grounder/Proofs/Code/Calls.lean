import Grounder.Proofs.Code.Precondition

/-!
# `Grounder.Proofs.Code.Calls`: which constraints a precondition calls

A condition that is read from the text of a precondition either checks a constraint by its number
or says something about the state. `calls` lists the checks. Rendering turns an atom or a comparison
into no check, and a use of a constraint into one check, of the number that was planned for it. So
the checks in the text are those of the planned numbers, in order (`exists_guards_calling`).
-/

set_option autoImplicit false

namespace Grounder

namespace Code

/-- The check of a constraint: whether it was decided before the search, and its number. -/
structure Call where
  isStatic : Bool
  id : Nat
  deriving DecidableEq, Repr

/-- The check that a test makes, if it makes one. -/
def Test.call? : Test → Option Call
  | .satisfied id _ => some ⟨false, id⟩
  | .constraintHolds id _ => some ⟨true, id⟩
  | .holdsUnary .. | .holds .. | .compare .. => none

/-- The checks that conditions make. -/
def calls (guards : List Condition) : List Call := guards.filterMap fun c => c.test.call?

/-- A condition that makes no check adds none. -/
theorem calls_cons_of_none {c : Condition} (h : c.test.call? = none) (guards : List Condition) :
    calls (c :: guards) = calls guards :=
  List.filterMap_cons_none h

/-- The check of the first condition comes first. -/
theorem calls_cons_of_some {c : Condition} {call : Call} (h : c.test.call? = some call)
    (guards : List Condition) : calls (c :: guards) = call :: calls guards :=
  List.filterMap_cons_some h

/-- A runtime that knows nothing but one answer, to every check of a constraint. -/
def Runtime.answering (answer : Bool) : Runtime where
  value _ _ _ := 0
  holds _ _ _ := false
  holdsUnary _ _ _ := false
  holdsUnary_eq _ _ _ := rfl
  satisfied _ _ := answer
  constraintHolds _ _ := answer

/-- A condition that does not change with the answers to checks makes no check. -/
theorem call?_eq_none {c : Condition}
    (h : c.eval (.answering true) (fun _ => 0) = c.eval (.answering false) (fun _ => 0)) :
    c.test.call? = none := by
  obtain ⟨negated, t⟩ := c
  cases t with
  | satisfied id args => cases negated <;> cases h
  | constraintHolds id args => cases negated <;> cases h
  | holdsUnary source symbol arg => rfl
  | holds source symbol args => rfl
  | compare op lhs rhs => rfl

end Code

namespace CodeScope

open Template Rendering

variable {s : CodeScope} {plan : ConstraintPlan}

/-- A rendered atom makes no check. -/
theorem exists_condition_of_atom_not_calling {symbol : String} {args : List Term} {negated : Bool}
    {text : String} (h : (s.atom symbol args negated).result Overrides.none = .ok text) :
    ∃ c : Code.Condition, text = c.text ∧ c.test.call? = none := by
  obtain ⟨c, rfl, hc⟩ := exists_condition_of_atom h
  -- Its value is that of the atom, and a runtime's checks do not enter into that.
  refine ⟨c, rfl, Code.call?_eq_none (Option.some.inj ?_)⟩
  rw [← hc, ← hc]
  rfl

/-- A rendered comparison makes no check. -/
theorem exists_condition_of_relation_not_calling {op : Comparison} {lhs rhs : Term} {text : String}
    (h : (s.relation op lhs rhs).result Overrides.none = .ok text) :
    ∃ c : Code.Condition, text = c.text ∧ c.test.call? = none := by
  obtain ⟨c, rfl, hc⟩ := exists_condition_of_relation h
  refine ⟨c, rfl, Code.call?_eq_none (Option.some.inj ?_)⟩
  rw [← hc, ← hc]
  rfl

/-- A rendered constraint makes its check, under its number and as it was planned. -/
theorem exists_condition_of_constraintCheck {c : NumberedUse} {text : String}
    (h : (s.constraintCheck c).result Overrides.none = .ok text) :
    ∃ condition : Code.Condition, text = condition.text ∧
      condition.test.call? = some ⟨c.isStatic, c.id⟩ := by
  simp only [constraintCheck, result_bind_eq_ok] at h
  obtain ⟨codes, hcodes, h⟩ := h
  obtain ⟨es, rfl, -⟩ := exists_exprs_of_args c.args hcodes
  cases hstatic : c.isStatic with
  | true =>
    rw [hstatic, if_pos rfl, result_fill_staticConstraintCheck] at h
    cases h
    exact ⟨⟨false, .constraintHolds c.id es⟩, (Code.constraintHolds_text _ _).symm, rfl⟩
  | false =>
    rw [hstatic, if_neg (by decide), result_fill_constraintCheck] at h
    cases h
    exact ⟨⟨false, .satisfied c.id es⟩, (Code.satisfied_text _ _).symm, rfl⟩

/-- The check of the use that a plan has under a number. -/
def Calls (plan : ConstraintPlan) (id : Nat) (call : Code.Call) : Prop :=
  ∃ c, plan.uses[id]? = some c ∧ call = ⟨c.isStatic, id⟩

/-- Rendered conjuncts are the texts of conditions that check the planned numbers, in order. -/
theorem exists_guards_calling_of_conditions (fs : List Formula) (hfs : ∀ f ∈ fs, f.IsConjunct)
    {ids : List Nat} (hids : List.Forall₂ (Numbers plan) ids (fs.filterMap Formula.use?))
    {codes : List String} (h : (s.conditions plan ids fs).result Overrides.none = .ok codes) :
    ∃ guards : List Code.Condition, codes = guards.map Code.Condition.text ∧
      List.Forall₂ (Calls plan) ids (Code.calls guards) := by
  induction fs generalizing ids codes with
  | nil =>
    cases hids
    rw [conditions] at h
    cases h
    exact ⟨[], rfl, .nil⟩
  | cons f rest ih =>
    have hrest : ∀ f ∈ rest, f.IsConjunct := fun g hg => hfs g (List.mem_cons_of_mem f hg)
    cases f with
    | true => exact (hfs .true List.mem_cons_self).elim
    | and parts => exact (hfs (.and parts) List.mem_cons_self).elim
    | atom symbol args negated =>
      simp only [conditions, result_bind_eq_ok] at h
      obtain ⟨code, hcode, codes, hcodes, h⟩ := h
      cases h
      obtain ⟨c, rfl, hc⟩ := exists_condition_of_atom_not_calling hcode
      obtain ⟨guards, rfl, hguards⟩ := ih hrest hids hcodes
      refine ⟨c :: guards, rfl, ?_⟩
      rw [Code.calls_cons_of_none hc]
      exact hguards
    | relation op lhs rhs =>
      simp only [conditions, result_bind_eq_ok] at h
      obtain ⟨code, hcode, codes, hcodes, h⟩ := h
      cases h
      obtain ⟨c, rfl, hc⟩ := exists_condition_of_relation_not_calling hcode
      obtain ⟨guards, rfl, hguards⟩ := ih hrest hids hcodes
      refine ⟨c :: guards, rfl, ?_⟩
      rw [Code.calls_cons_of_none hc]
      exact hguards
    | constraint use =>
      -- The number at the front belongs to this use, and rendering takes it.
      obtain ⟨planned, left, rfl, hget, -, hplanned, hleft⟩ := exists_planned (s := s) hids
      simp only [conditions, result_bind_eq_ok, hplanned, result_pure] at h
      obtain ⟨c, hc, code, hcode, codes, hcodes, h⟩ := h
      cases hc
      cases h
      obtain ⟨c, rfl, hc⟩ := exists_condition_of_constraintCheck hcode
      obtain ⟨guards, rfl, hguards⟩ := ih hrest hleft hcodes
      refine ⟨c :: guards, rfl, ?_⟩
      rw [Code.calls_cons_of_some hc]
      exact .cons ⟨planned, hget, rfl⟩ hguards

/-- A rendered precondition is the text of statements that check the numbers of the action. -/
theorem exists_guards_calling {ids : List Nat}
    (hids : List.Forall₂ (Numbers plan) ids s.action.precondition.uses) {text : String}
    (h : (s.preconditionCode plan ids).result Overrides.none = .ok text) :
    ∃ guards, Code.readGuards text = some guards ∧
      List.Forall₂ (Calls plan) ids (Code.calls guards) := by
  simp only [preconditionCode, result_bind_eq_ok] at h
  obtain ⟨codes, hcodes, h⟩ := h
  obtain ⟨guards, rfl, hguards⟩ :=
    exists_guards_calling_of_conditions _ (Formula.isConjunct_of_mem_conjuncts _) hids hcodes
  have htext : text = Code.guardsText guards := by
    rw [← Except.ok.inj h, Code.guardsText, List.map_map]
    rfl
  exact ⟨guards, by rw [htext, Code.readGuards_text], hguards⟩

end CodeScope

end Grounder
