import Grounder.Code.Expression

/-!
# `Grounder.Proofs.Code.Language`: the language of generated expressions

Rendered code asks a runtime that is not part of this library: the state and the static data
answer questions about symbols, and constraints are checked by their numbers. This file gives the
expressions that may occur in such code a syntax of their own, the text that writes them, and a
meaning over any runtime.

An expression stands for a code: an integer, or the id of an object. A condition stands for a
truth value. `applicable` is a list of conditions, each of which leaves with `false` when it
fails, and `runGuards` runs it.

`Proofs/Code/Reader.lean` and `Proofs/Code/Guards.lean` read the texts back, so that the meaning
belongs to the text.
-/

set_option autoImplicit false

namespace Grounder

/-- Whether a comparison holds of two codes. -/
def Comparison.holds : Comparison → Int → Int → Bool
  | .equal, x, y => x == y
  | .different, x, y => x != y
  | .less, x, y => decide (x < y)
  | .atMost, x, y => decide (x ≤ y)
  | .greater, x, y => decide (y < x)
  | .atLeast, x, y => decide (y ≤ x)

namespace Code

/-- Who answers a question about a symbol. -/
inductive Source where
  | state
  | statics
  deriving DecidableEq, Repr

def Source.text : Source → String
  | .state => "state"
  | .statics => "statics"

/-- An expression that stands for a code. -/
inductive Expr where
  | binding (position : Nat)
  | literal (n : Int)
  | value (source : Source) (symbol : Nat) (args : List Expr)
  deriving Repr

/-- A question whose answer is a truth value. -/
inductive Test where
  | holdsUnary (source : Source) (symbol : Nat) (arg : Expr)
  | holds (source : Source) (symbol : Nat) (args : List Expr)
  | compare (op : Comparison) (lhs rhs : Expr)
  | satisfied (constraint : Nat) (args : List Expr)
  | constraintHolds (constraint : Nat) (args : List Expr)
  deriving Repr

/-- An expression that stands for a truth value: a test, or the negation of one. -/
structure Condition where
  negated : Bool
  test : Test
  deriving Repr

/-! ### Texts -/

/-- The beginning of a question about a symbol, up to the arguments after the symbol's number. -/
def Source.asks (source : Source) (call : String) (symbol : Nat) : String :=
  source.text ++ call ++ toString symbol ++ ", "

mutual

/-- The text of an expression. -/
def Expr.text : Expr → String
  | .binding position => "binding[" ++ toString position ++ "]"
  | .literal n => toString n
  | .value source symbol args =>
    source.asks ".value(" symbol ++ "\x7b" ++ ", ".intercalate (texts args) ++ "\x7d)"

/-- The text of every expression. -/
def texts : List Expr → List String
  | [] => []
  | e :: rest => e.text :: texts rest

end

/-- The text of expressions as arguments. -/
def argsText (args : List Expr) : String := ", ".intercalate (texts args)

/-- A call with its arguments in braces. -/
def callText (head : String) (args : List Expr) : String :=
  head ++ "\x7b" ++ argsText args ++ "\x7d)"

/-- The beginning of the check of a constraint during the search. -/
def satisfiedCall (constraint : Nat) : String :=
  "Constraint" ++ toString constraint ++ "::satisfied("

/-- The beginning of the check of a constraint that was decided before the search. -/
def constraintHoldsCall (constraint : Nat) : String :=
  "statics.constraint_holds(" ++ toString constraint ++ ", "

/-- The text of a test. -/
def Test.text : Test → String
  | .holdsUnary source symbol arg => source.asks ".holds_unary(" symbol ++ arg.text ++ ")"
  | .holds source symbol args => callText (source.asks ".holds(" symbol) args
  | .compare op lhs rhs => "(" ++ lhs.text ++ " " ++ op.operator ++ " " ++ rhs.text ++ ")"
  | .satisfied constraint args => callText (satisfiedCall constraint) args
  | .constraintHolds constraint args => callText (constraintHoldsCall constraint) args

/-- The text of a condition. -/
def Condition.text (c : Condition) : String :=
  if c.negated then "!(" ++ c.test.text ++ ")" else c.test.text

/-! ### Meanings -/

/-- The values of functions at codes. -/
abbrev Values := Source → Nat → List Int → Int

/-- What the calls that code makes answer. The answer depends on the number of the symbol or of the
constraint and on the codes of the arguments alone, and a unary question is the question with one
argument. -/
structure Runtime where
  value : Values
  holds : Source → Nat → List Int → Bool
  holdsUnary : Source → Nat → Int → Bool
  holdsUnary_eq : ∀ source symbol arg, holdsUnary source symbol arg = holds source symbol [arg]
  satisfied : Nat → List Int → Bool
  constraintHolds : Nat → List Int → Bool

/-- The codes of the parameters of an action, by position. -/
abbrev Binding := Nat → Int

mutual

/-- The code that an expression stands for. -/
def Expr.eval (values : Values) (binding : Binding) : Expr → Int
  | .binding position => binding position
  | .literal n => n
  | .value source symbol args => values source symbol (evals values binding args)

/-- The codes that expressions stand for. -/
def evals (values : Values) (binding : Binding) : List Expr → List Int
  | [] => []
  | e :: rest => e.eval values binding :: evals values binding rest

end

/-- The answer to a test. -/
def Test.eval (rt : Runtime) (binding : Binding) : Test → Bool
  | .holdsUnary source symbol arg => rt.holdsUnary source symbol (arg.eval rt.value binding)
  | .holds source symbol args => rt.holds source symbol (evals rt.value binding args)
  | .compare op lhs rhs => op.holds (lhs.eval rt.value binding) (rhs.eval rt.value binding)
  | .satisfied constraint args => rt.satisfied constraint (evals rt.value binding args)
  | .constraintHolds constraint args => rt.constraintHolds constraint (evals rt.value binding args)

/-- The truth value that a condition stands for. -/
def Condition.eval (rt : Runtime) (binding : Binding) (c : Condition) : Bool :=
  if c.negated then !c.test.eval rt binding else c.test.eval rt binding

/-- The answer of statements that leave with `false` at the first condition that fails, in front
of a `return true`. -/
def runGuards (rt : Runtime) (binding : Binding) : List Condition → Bool
  | [] => true
  | c :: rest => if !c.eval rt binding then false else runGuards rt binding rest

/-- The statements leave with `true` exactly when every condition holds. -/
theorem runGuards_eq_all (rt : Runtime) (binding : Binding) (guards : List Condition) :
    runGuards rt binding guards = guards.all (·.eval rt binding) := by
  induction guards with
  | nil => rfl
  | cons c rest ih =>
    rw [runGuards, ih, List.all_cons]
    cases c.eval rt binding <;> rfl

end Code

end Grounder
