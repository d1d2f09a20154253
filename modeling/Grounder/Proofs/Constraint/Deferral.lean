import Grounder.Proofs.Constraint.Numbering
import Grounder.Proofs.Task.Subterms

/-!
# `Grounder.Proofs.Constraint.Deferral`: plans in which every constraint is deferred

A plan that decides constraints before the search differs from one that does not in these decisions
alone: with every decision taken back, the one becomes the other (`ofTask_false_eq`). So the two
number the same uses in the same way. `isStatic_iff` says which uses are decided before the search.
-/

set_option autoImplicit false

namespace Grounder

open Grounder.Proofs.Support

/-- The use, checked during the search. -/
def PlannedUse.defer (use : PlannedUse) : PlannedUse := { use with isStatic := false }

/-- The numbered use, checked during the search. -/
def NumberedUse.defer (c : NumberedUse) : NumberedUse := { c with isStatic := false }

namespace ConstraintPlan

/-- The plan in which every constraint is checked during the search. -/
def defer (plan : ConstraintPlan) : ConstraintPlan :=
  { plan with uses := plan.uses.map NumberedUse.defer }

variable {c : Classification} {resolve : Bool}

/-- Everything is deferred, in the same order. -/
theorem deferred_defer (plan : ConstraintPlan) :
    plan.defer.deferred = plan.uses.map NumberedUse.defer := by
  rw [deferred, defer, List.filter_eq_self]
  intro u hu
  obtain ⟨c, -, rfl⟩ := List.mem_map.1 hu
  rfl

/-- Without static uses, the check of a use only leaves out the decision. -/
theorem checkUse_false_eq (origin : ConstraintOrigin) (use : ConstraintUse) :
    checkUse c false origin use = (checkUse c resolve origin use).map PlannedUse.defer := by
  rw [checkUse, checkUse]
  cases CatalogConstraint.make use.name use.parameters (Term.texts use.args) <;> rfl

/-- Without static uses, the check of a constraint on states only leaves out the decision. -/
theorem checkStateUse_false_eq (use : ConstraintUse) :
    checkStateUse c false use = (checkStateUse c resolve use).map PlannedUse.defer := by
  rw [checkStateUse, checkStateUse]
  split
  · rfl
  · exact checkUse_false_eq .state use

/-- Uses are numbered in the same way if they are deferred. -/
theorem numbered_map_defer (uses : List PlannedUse) :
    numbered (uses.map PlannedUse.defer) = (numbered uses).map NumberedUse.defer := by
  rw [numbered, numbered, List.zipIdx_map, List.map_map, List.map_map]
  rfl

/-- Without static uses, planning only leaves out the decisions. -/
theorem ofTask_false_eq (t : Task) (c : Classification) (resolve : Bool) :
    ofTask t c false = (ofTask t c resolve).map defer := by
  -- Both checks fail at the same use, with the same error.
  have hstate : t.constraints.mapM (checkStateUse c false)
      = (t.constraints.mapM (checkStateUse c resolve)).map (List.map PlannedUse.defer) := by
    rw [← mapM_map_result]
    exact congrArg (List.mapM · t.constraints) (funext checkStateUse_false_eq)
  have haction (a : Action) : a.precondition.uses.mapM (checkUse c false (.action a.name))
      = (a.precondition.uses.mapM (checkUse c resolve (.action a.name))).map
        (List.map PlannedUse.defer) := by
    rw [← mapM_map_result]
    exact congrArg (List.mapM · a.precondition.uses) (funext (checkUse_false_eq _))
  rw [ofTask_eq, ofTask_eq, hstate]
  simp only [haction, mapM_map_result]
  cases t.constraints.mapM (checkStateUse c resolve) with
  | error e => rfl
  | ok state =>
    cases t.actions.mapM fun a =>
      a.precondition.uses.mapM (checkUse c resolve (.action a.name)) with
    | error e => rfl
    | ok actions =>
      -- The groups have the same sizes, so the same numbers go to the actions.
      show Except.ok _ = Except.ok _
      rw [defer, ← numbered_map_defer, List.map_append, List.map_flatten, List.length_map,
        List.map_map]
      simp only [Function.comp_def, List.length_map]

/-- The uses that are decided before the search are those of external constraints in whose terms no
fluent symbol is applied, if static uses are asked for. -/
theorem isStatic_iff {t : Task} {plan : ConstraintPlan} (hplan : ofTask t c resolve = .ok plan)
    {u : NumberedUse} (hu : u ∈ plan.uses) :
    u.isStatic = true ↔ resolve = true ∧ u.constraint.kind = .external ∧
      ∀ symbol args, .app symbol args ∈ Term.subtermsOfAll u.args → c.isFluent symbol = false := by
  obtain ⟨origin, use, hcheck⟩ := checked_of_mem_uses hplan hu
  obtain ⟨d, -, hplanned⟩ := checkUse_eq_ok.1 hcheck
  obtain ⟨⟨constraint, _, isStatic, args⟩, id⟩ := u
  cases hplanned
  have hmentions := Term.anyMentions_iff c.isFluent use.args
  rw [Bool.and_eq_true, isResolvable, Bool.and_eq_true, beq_iff_eq, Bool.not_eq_true',
    ← Bool.not_eq_true, hmentions]
  simp only [not_exists, not_and, Bool.not_eq_true]

end ConstraintPlan

end Grounder
