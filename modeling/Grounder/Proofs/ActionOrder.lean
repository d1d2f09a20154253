import Grounder.Proofs.GroundModel
import Grounder.Proofs.VariableNumbering

/-!
# `Grounder.Proofs.ActionOrder`: grounding does not depend on the order of actions

Grounding reads the actions for the targets of their effects only, and these decide the
classification whatever order they come in (`Classification.ofActions_of_reordered`). All other
stages do not look at the actions. So a task that is grounded has the same model after its actions,
or the effects in them, are put in another order, and a task that is not grounded fails with the
same error, unless several effects are on undeclared symbols: the first of them is the one that is
reported (`SameUpToTarget`).

`grounding_ignores_action_order` puts this together with what a classification says (`Partitions`).
-/

set_option autoImplicit false

namespace Grounder

open Proofs.Support

/-- Both runs come out the same, or each of them reports an effect of its task on a symbol that is
not declared. -/
def SameUpToTarget (t t' : Task) (r r' : Except GroundingError GroundModel) : Prop :=
  r' = r ∨ ∃ table error error', SymbolTable.ofTask t = .ok table ∧
    r = .error error ∧ ReportsTarget t.actions table error ∧
    r' = .error error' ∧ ReportsTarget t'.actions table error'

/-- With its actions in another order, a task is grounded to the same model. -/
theorem GroundModel.build_of_reordered {t : Task} {actions' : List Action} (order : SymbolOrder)
    (h : Reordered t.actions actions') :
    SameUpToTarget t { t with actions := actions' } (build t order)
      (build { t with actions := actions' } order) := by
  -- The stages up to the classification do not look at the actions.
  have hsymbols : SymbolTable.ofTask { t with actions := actions' } = SymbolTable.ofTask t := rfl
  have hobjects : undeclaredObject? { t with actions := actions' } = undeclaredObject? t := rfl
  rw [build, build, hsymbols, hobjects]
  dsimp only
  cases htable : SymbolTable.ofTask t with
  | error e => exact Or.inl rfl
  | ok table =>
    cases undeclaredObject? t (ObjectNumbering.ofObjects t.objects) with
    | some e => exact Or.inl rfl
    | none =>
      cases hc : Classification.ofActions t.actions table with
      | ok c =>
        refine Or.inl ?_
        dsimp only [bind, Except.bind]
        rw [(Classification.ofActions_of_reordered h).1 hc, hc]
      | error e =>
        cases hc' : Classification.ofActions actions' table with
        | ok c =>
          -- A classification of the reordered actions would be one of the actions.
          rw [(Classification.ofActions_of_reordered h).2 hc'] at hc
          cases hc
        | error e' =>
          refine Or.inr ⟨table, e, e', htable, ?_, Classification.reportsTarget_of_ofActions hc,
            ?_, Classification.reportsTarget_of_ofActions hc'⟩
          · dsimp only [bind, Except.bind]
            rw [hc]
          · dsimp only [bind, Except.bind]
            rw [hc']

/-- Actions have a classification exactly when all targets of their effects are declared, and it
splits the declared symbols into targets and others. Grounding comes out the same in every order of
the actions and of the effects in each of them, up to the undeclared target that is reported. -/
theorem grounding_ignores_action_order :
    (∀ (table : SymbolTable) (actions : List Action),
      ((∃ c, Classification.ofActions actions table = .ok c) ↔
        ∀ a ∈ actions, ∀ e ∈ a.effects, e.symbol ∈ table.names) ∧
      ∀ c, Classification.ofActions actions table = .ok c → c.Partitions actions table) ∧
    ∀ (t : Task) (actions' : List Action) (order : SymbolOrder), Reordered t.actions actions' →
      SameUpToTarget t { t with actions := actions' } (GroundModel.build t order)
        (GroundModel.build { t with actions := actions' } order) := by
  refine ⟨fun table actions => ⟨?_, fun c => Classification.partitions_of_ofActions⟩,
    fun t actions' order => GroundModel.build_of_reordered order⟩
  constructor
  · rintro ⟨c, hc⟩
    exact (Classification.ofActions_eq_ok.1 hc).1
  · intro hdeclared
    exact ⟨_, Classification.ofActions_eq_ok.2 ⟨hdeclared, rfl⟩⟩

/-- A car leaves its place. -/
def leaveAction : Action :=
  ⟨"leave", [⟨"?c", "car"⟩, ⟨"?p", "place"⟩], .atom "at" [.param "?c", .param "?p"] false,
    [⟨"free", [.param "?p"], none, false, none⟩,
      ⟨"at", [.param "?c", .param "?p"], none, true, none⟩]⟩

/-- Cars that park and leave. -/
def leavingTask : Task :=
  { VariableNumbering.parkingTask with
    actions := VariableNumbering.parkingTask.actions ++ [leaveAction] }

/-- The model stays the same if `leave` is listed first, with its effects the other way round. -/
theorem grounding_ignores_action_order_leaving :
    ∃ m, GroundModel.build leavingTask .declaration = .ok m ∧
      m.classification.fluents = ["at", "free"] ∧
      GroundModel.build { leavingTask with
        actions := { leaveAction with effects := leaveAction.effects.reverse } ::
          VariableNumbering.parkingTask.actions } .declaration = .ok m := by
  obtain ⟨m, hm⟩ : ∃ m, GroundModel.build leavingTask .declaration = .ok m := ⟨_, rfl⟩
  have hfluents : m.classification.fluents = ["at", "free"] :=
    feature_eq (f := fun m => m.classification.fluents) hm rfl
  have hsame := grounding_ignores_action_order.2 leavingTask
    ({ leaveAction with effects := leaveAction.effects.reverse } ::
      VariableNumbering.parkingTask.actions) .declaration
    ⟨_, List.perm_append_comm, .cons ⟨rfl, rfl, rfl, (List.reverse_perm _).symm⟩
      (List.forall₂_same.2 fun a _ => ⟨rfl, rfl, rfl, .refl _⟩)⟩
  refine ⟨m, hm, hfluents, ?_⟩
  rcases hsame with hsame | ⟨_, _, _, -, herror, -⟩
  · rw [hsame, hm]
  · rw [hm] at herror
    cases herror

end Grounder
