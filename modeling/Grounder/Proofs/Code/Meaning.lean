import Grounder.Proofs.Code.Language
import Grounder.Proofs.Constraint.Numbering

/-!
# `Grounder.Proofs.Code.Meaning`: what lifted terms and preconditions mean

Terms and formulas of a task get a meaning of their own here, over the same runtime that generated
code asks. A fluent symbol is read from the state and a static one from the static data, equality
compares codes, a parameter is what the binding holds at its position, and an object is its id.
The constraints of a precondition are the planned ones, taken in the order in which the formula
mentions them, so a formula is evaluated along with the numbers that are left.

Nothing here mentions code. `Proofs/Code/Precondition.lean` and `Proofs/Code/Effects.lean` compare
the meanings with those of the texts that are generated.
-/

set_option autoImplicit false

namespace Grounder

/-- The members of a conjunction that `Formula.conjuncts` keeps. -/
def Formula.IsConjunct : Formula → Prop
  | .true | .and _ => False
  | .atom .. | .relation .. | .constraint .. => True

mutual

/-- What flattening keeps is no conjunction itself. -/
theorem Formula.isConjunct_of_mem_conjuncts (f : Formula) :
    ∀ g ∈ f.conjuncts, g.IsConjunct := by
  intro g hg
  cases f with
  | true => cases hg
  | and parts =>
    rw [conjuncts] at hg
    exact isConjunct_of_mem_conjunctsOfAll parts g hg
  | atom symbol args negated => rw [List.mem_singleton.1 hg]; trivial
  | relation op lhs rhs => rw [List.mem_singleton.1 hg]; trivial
  | constraint use => rw [List.mem_singleton.1 hg]; trivial

/-- What flattening a list of formulas keeps is no conjunction itself. -/
theorem Formula.isConjunct_of_mem_conjunctsOfAll (fs : List Formula) :
    ∀ g ∈ conjunctsOfAll fs, g.IsConjunct := by
  intro g hg
  cases fs with
  | nil => cases hg
  | cons f rest =>
    rw [conjunctsOfAll] at hg
    rcases List.mem_append.1 hg with hg | hg
    · exact isConjunct_of_mem_conjuncts f g hg
    · exact isConjunct_of_mem_conjunctsOfAll rest g hg

end

namespace CodeScope

/-- Where the answers about a symbol come from. -/
def sourceOf (s : CodeScope) (symbol : String) : Code.Source :=
  if s.model.classification.isFluent symbol then .state else .statics

mutual

/-- The code that a term stands for. -/
def value? (s : CodeScope) (values : Code.Values) (binding : Code.Binding) : Term → Option Int
  | .param name => (s.action.paramPosition? name).map binding
  | .object name => (s.model.objects.id? name).map Int.ofNat
  | .int n => some n.toInt
  | .app symbol args => do
    let sym ← s.model.symbols.get? symbol
    let codes ← s.values? values binding args
    return values (s.sourceOf symbol) sym.id codes

/-- The codes that terms stand for. -/
def values? (s : CodeScope) (values : Code.Values) (binding : Code.Binding) :
    List Term → Option (List Int)
  | [] => some []
  | t :: rest => do
    let code ← s.value? values binding t
    let codes ← s.values? values binding rest
    return code :: codes

end

/-- Whether two codes are the same. -/
def sameCodes? : List Int → Option Bool
  | [x, y] => some (x == y)
  | _ => none

/-- Whether an atom without its sign holds of codes. -/
def positiveHolds? (s : CodeScope) (rt : Code.Runtime) (symbol : String) (codes : List Int) :
    Option Bool :=
  if symbol = equality then sameCodes? codes
  else (s.model.symbols.get? symbol).map fun sym => rt.holds (s.sourceOf symbol) sym.id codes

/-- Whether an atom holds. -/
def atomHolds? (s : CodeScope) (rt : Code.Runtime) (binding : Code.Binding) (symbol : String)
    (args : List Term) (negated : Bool) : Option Bool := do
  let codes ← s.values? rt.value binding args
  let positive ← s.positiveHolds? rt symbol codes
  return if negated then !positive else positive

/-- Whether two terms compare. -/
def relationHolds? (s : CodeScope) (rt : Code.Runtime) (binding : Code.Binding) (op : Comparison)
    (lhs rhs : Term) : Option Bool := do
  let x ← s.value? rt.value binding lhs
  let y ← s.value? rt.value binding rhs
  return op.holds x y

/-- Whether the planned constraint with a number holds of the arguments of a use. -/
def useHolds? (s : CodeScope) (plan : ConstraintPlan) (rt : Code.Runtime) (binding : Code.Binding)
    (id : Nat) (use : ConstraintUse) : Option Bool := do
  let planned ← plan.uses[id]?
  let codes ← s.values? rt.value binding use.args
  return if planned.isStatic then rt.constraintHolds id codes else rt.satisfied id codes

mutual

/-- Whether a formula holds, where `ids` are the numbers of its constraints, and the numbers that
are left after it. -/
def holds? (s : CodeScope) (plan : ConstraintPlan) (rt : Code.Runtime) (binding : Code.Binding)
    (ids : List Nat) : Formula → Option (Bool × List Nat)
  | .true => some (true, ids)
  | .atom symbol args negated =>
    (s.atomHolds? rt binding symbol args negated).map fun b => (b, ids)
  | .relation op lhs rhs => (s.relationHolds? rt binding op lhs rhs).map fun b => (b, ids)
  | .and parts => s.allHold? plan rt binding ids parts
  | .constraint use =>
    match ids with
    | [] => none
    | id :: rest => (s.useHolds? plan rt binding id use).map fun b => (b, rest)

/-- Whether every formula holds, one after another. -/
def allHold? (s : CodeScope) (plan : ConstraintPlan) (rt : Code.Runtime) (binding : Code.Binding)
    (ids : List Nat) : List Formula → Option (Bool × List Nat)
  | [] => some (true, ids)
  | f :: rest => do
    let (b, ids) ← s.holds? plan rt binding ids f
    let (b', ids) ← s.allHold? plan rt binding ids rest
    return (b && b', ids)

end

/-! ### Flattening -/

section Flattening

variable (s : CodeScope) (plan : ConstraintPlan) (rt : Code.Runtime) (binding : Code.Binding)

/-- A list of formulas holds if both of its parts do, and the second part gets the numbers that the
first one leaves. -/
theorem allHold?_append (ids : List Nat) (fs gs : List Formula) :
    s.allHold? plan rt binding ids (fs ++ gs) = (do
      let (b, ids) ← s.allHold? plan rt binding ids fs
      let (b', ids) ← s.allHold? plan rt binding ids gs
      return (b && b', ids)) := by
  -- Each formula may take numbers, so the statement is about any numbers.
  induction fs generalizing ids with
  | nil =>
    simp only [List.nil_append, allHold?, Option.bind_eq_bind, Option.bind_some]
    cases s.allHold? plan rt binding ids gs with
    | none => rfl
    | some rest => simp
  | cons f fs ih =>
    rw [List.cons_append, allHold?, allHold?]
    cases s.holds? plan rt binding ids f with
    | none => rfl
    | some first =>
      obtain ⟨b, ids⟩ := first
      simp only [Option.bind_eq_bind, Option.bind_some, ih, Option.bind_assoc, Option.pure_def,
        Bool.and_assoc]

/-- One formula holds as a list of formulas if it holds. -/
theorem allHold?_singleton (ids : List Nat) (f : Formula) :
    s.allHold? plan rt binding ids [f] = s.holds? plan rt binding ids f := by
  rw [allHold?]
  cases s.holds? plan rt binding ids f with
  | none => rfl
  | some first => simp [allHold?]

mutual

/-- A formula means what its conjuncts mean together. -/
theorem allHold?_conjuncts (ids : List Nat) (f : Formula) :
    s.allHold? plan rt binding ids f.conjuncts = s.holds? plan rt binding ids f := by
  cases f with
  | true => rfl
  | and parts =>
    rw [Formula.conjuncts, holds?]
    exact allHold?_conjunctsOfAll ids parts
  | atom symbol args negated => exact allHold?_singleton s plan rt binding ids _
  | relation op lhs rhs => exact allHold?_singleton s plan rt binding ids _
  | constraint use => exact allHold?_singleton s plan rt binding ids _

/-- Formulas mean what all their conjuncts mean together. -/
theorem allHold?_conjunctsOfAll (ids : List Nat) (fs : List Formula) :
    s.allHold? plan rt binding ids (Formula.conjunctsOfAll fs)
      = s.allHold? plan rt binding ids fs := by
  cases fs with
  | nil => rfl
  | cons f rest =>
    rw [Formula.conjunctsOfAll, allHold?_append, allHold?, allHold?_conjuncts ids f]
    cases s.holds? plan rt binding ids f with
    | none => rfl
    | some first =>
      obtain ⟨b, ids⟩ := first
      simp only [Option.bind_eq_bind, Option.bind_some, allHold?_conjunctsOfAll ids rest]

end

end Flattening

end CodeScope

end Grounder
