import Grounder.Code.Expression
import Grounder.Constraint.Plan

/-!
# `Grounder.Code.Statement`: preconditions and effects as statements

Every conjunct of a precondition becomes a line that leaves when the conjunct fails, and every
effect becomes a line that sets one state variable. An effect has to assign the value that its
symbol takes, without a condition and to a variable whose arguments are plain.
-/

set_option autoImplicit false

namespace Grounder

namespace CodeScope

/-- A statement on its line. -/
def statementLine (code : String) : String := "        " ++ code

/-! ### Preconditions -/

/-- The code that checks a constraint over the arguments it was planned with. -/
def constraintCheck (s : CodeScope) (c : NumberedUse) : Rendering String := do
  let codes ← s.args c.args
  .fill (if c.isStatic then "static_constraint_check" else "constraint_check")
    [("id", toString c.id), ("args", codes)]

/-- The planned use of a constraint, which is the first one left of its action. -/
def planned (s : CodeScope) (plan : ConstraintPlan) (ids : List Nat) (use : ConstraintUse) :
    Rendering NumberedUse :=
  match ids.head?.bind fun id => plan.uses[id]? with
  | some c => pure c
  | none => .fail (s.invalid (.unplannedConstraint use.name))

/-- The conditions of conjuncts, where `ids` are the numbers left of the action's constraints. -/
def conditions (s : CodeScope) (plan : ConstraintPlan) (ids : List Nat) :
    List Formula → Rendering (List String)
  | [] => pure []
  | .atom symbol args negated :: rest => do
    let code ← s.atom symbol args negated
    let codes ← s.conditions plan ids rest
    return code :: codes
  | .relation op lhs rhs :: rest => do
    let code ← s.relation op lhs rhs
    let codes ← s.conditions plan ids rest
    return code :: codes
  | .constraint use :: rest => do
    let c ← s.planned plan ids use
    let code ← s.constraintCheck c
    let codes ← s.conditions plan ids.tail rest
    return code :: codes
  | _ :: rest => s.conditions plan ids rest

/-- The statement that leaves unless a condition holds. -/
def guardLine (condition : String) : String :=
  statementLine ("if (!(" ++ condition ++ ")) return false;")

/-- The statements of the precondition, where `ids` are the numbers of its constraints. -/
def preconditionCode (s : CodeScope) (plan : ConstraintPlan) (ids : List Nat) :
    Rendering String := do
  let codes ← s.conditions plan ids s.action.precondition.conjuncts
  return "\n".intercalate (codes.map guardLine)

/-! ### Effects -/

/-- Goes on unless an effect has a fault. -/
def refuse (s : CodeScope) (e : Effect) (isFaulty : Bool) (fault : EffectFault) :
    Rendering Unit :=
  if isFaulty then .fail (.ground (.effectShape s.action.name e.text fault)) else pure ()

/-- The code of the value that an effect gives its symbol. -/
def effectValue (s : CodeScope) (sym : Symbol) (e : Effect) : Rendering String :=
  if sym.isPredicate then do
    s.refuse e e.value.isSome .predicateWithValue
    return boolToken !e.negated
  else do
    s.refuse e e.negated .negatedFunction
    match e.value with
    | some value => s.term value
    | none => .fail (.ground (.effectShape s.action.name e.text .functionWithoutValue))

/-- The statement of an effect. -/
def effectLine (s : CodeScope) (e : Effect) : Rendering String := do
  s.refuse e e.condition.isSome .conditional
  let sym ← s.require e.symbol
  s.refuse e (!s.model.classification.isFluent sym.name) .staticSymbol
  s.checkArity sym e.args
  s.refuse e (e.args.any Term.isApp) .nestedTerm
  let value ← s.effectValue sym e
  let codes ← s.args e.args
  let code ← .fill "effect"
    [("symbol_id", toString sym.id), ("value", value), ("effect", e.text), ("args", codes)]
  return statementLine code

/-- The statements of effects. -/
def effectLines (s : CodeScope) : List Effect → Rendering (List String)
  | [] => pure []
  | e :: rest => do
    let line ← s.effectLine e
    let lines ← s.effectLines rest
    return line :: lines

/-- The statements of all effects of the action. -/
def effectCode (s : CodeScope) : Rendering String := do
  let lines ← s.effectLines s.action.effects
  return "\n".intercalate lines

end CodeScope

end Grounder
