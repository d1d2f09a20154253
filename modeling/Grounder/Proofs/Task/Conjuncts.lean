import Grounder.Task.Formula

/-!
# `Grounder.Proofs.Task.Conjuncts`: what flattening keeps of a formula

A formula is a tree of conjunctions, and flattening keeps its leaves from left to right but for
`true` (`conjuncts_eq_otherLeaves`). So formulas that differ only in how their conjunctions are
nested and where `true` stands in them have the same conjuncts.

Flattening does not change what a formula says either. Whatever atoms, comparisons and constraints
are taken to hold (`TruthAssignment`), a formula holds exactly if all of its conjuncts do
(`holds_iff_conjuncts`).
-/

set_option autoImplicit false

namespace Grounder

namespace Formula

/-! ### Leaves -/

mutual

/-- The formulas under the conjunctions of a formula, from left to right. -/
def leaves : Formula → List Formula
  | .and parts => leavesOfAll parts
  | f => [f]

/-- The leaves of all the formulas, one after another. -/
def leavesOfAll : List Formula → List Formula
  | [] => []
  | f :: rest => f.leaves ++ leavesOfAll rest

end

/-- Whether a formula is `true` itself. -/
def isTrue : Formula → Bool
  | .true => Bool.true
  | _ => Bool.false

/-- The leaves other than `true`. -/
def otherLeaves (f : Formula) : List Formula := f.leaves.filter fun leaf => !leaf.isTrue

mutual

/-- The conjuncts of a formula are its leaves other than `true`. -/
theorem conjuncts_eq_otherLeaves (f : Formula) : f.conjuncts = f.otherLeaves := by
  cases f with
  | true => rfl
  | and parts =>
    rw [conjuncts, otherLeaves, leaves]
    exact conjunctsOfAll_eq parts
  | atom symbol args negated => rfl
  | relation op lhs rhs => rfl
  | constraint use => rfl

/-- The conjuncts of formulas are their leaves other than `true`. -/
theorem conjunctsOfAll_eq (fs : List Formula) :
    conjunctsOfAll fs = (leavesOfAll fs).filter fun leaf => !leaf.isTrue := by
  cases fs with
  | nil => rfl
  | cons f rest =>
    rw [conjunctsOfAll, leavesOfAll, List.filter_append, conjuncts_eq_otherLeaves f,
      conjunctsOfAll_eq rest, otherLeaves]

end

/-! ### Truth -/

/-- What is taken to hold. -/
structure TruthAssignment where
  atom : String → List Term → Bool
  relation : Comparison → Term → Term → Bool
  constraint : ConstraintUse → Bool

mutual

/-- Whether a formula holds. A negated atom holds if the atom does not. -/
def holds (v : TruthAssignment) : Formula → Bool
  | .true => Bool.true
  | .atom symbol args negated => if negated then !v.atom symbol args else v.atom symbol args
  | .relation op lhs rhs => v.relation op lhs rhs
  | .and parts => allHold v parts
  | .constraint use => v.constraint use

/-- Whether all the formulas hold. -/
def allHold (v : TruthAssignment) : List Formula → Bool
  | [] => Bool.true
  | f :: rest => f.holds v && allHold v rest

end

variable (v : TruthAssignment)

/-- All formulas hold if each of them does. -/
theorem allHold_eq_all (fs : List Formula) : allHold v fs = fs.all (·.holds v) := by
  induction fs with
  | nil => rfl
  | cons f rest ih => rw [allHold, ih, List.all_cons]

mutual

/-- A formula says what its conjuncts say together. -/
theorem all_holds_conjuncts (f : Formula) : f.conjuncts.all (·.holds v) = f.holds v := by
  cases f with
  | true => rfl
  | and parts =>
    rw [conjuncts, holds, allHold_eq_all]
    exact all_holds_conjunctsOfAll parts
  | atom symbol args negated => simp [conjuncts]
  | relation op lhs rhs => simp [conjuncts]
  | constraint use => simp [conjuncts]

/-- Formulas say what all their conjuncts say together. -/
theorem all_holds_conjunctsOfAll (fs : List Formula) :
    (conjunctsOfAll fs).all (·.holds v) = fs.all (·.holds v) := by
  cases fs with
  | nil => rfl
  | cons f rest =>
    rw [conjunctsOfAll, List.all_append, List.all_cons, all_holds_conjuncts f,
      all_holds_conjunctsOfAll rest]

end

/-- A formula holds exactly if all of its conjuncts hold. -/
theorem holds_iff_conjuncts (f : Formula) : f.holds v ↔ ∀ g ∈ f.conjuncts, g.holds v := by
  rw [← all_holds_conjuncts, List.all_eq_true]

end Formula

end Grounder
