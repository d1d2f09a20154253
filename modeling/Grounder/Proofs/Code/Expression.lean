import Grounder.Code.Statement
import Grounder.Proofs.Code.Meaning
import Grounder.Proofs.Template.Fill

/-!
# `Grounder.Proofs.Code.Expression`: rendered terms and atoms mean what they should

The built-in templates render a term as the text of an expression, and an atom, a comparison and
the check of a constraint as the texts of conditions. Over every runtime and every binding, the
expression stands for the code of the term, and the condition holds exactly when the atom, the
comparison or the constraint does:

* `exists_expr_of_term` and `exists_exprs_of_terms`, by induction on terms.
* `exists_condition_of_atom`, `exists_condition_of_relation` and `exists_condition_of_constraint`.
-/

set_option autoImplicit false

namespace Grounder

namespace Code

/-- The text of the value of a function, put together as its template does. -/
theorem value_text (source : Source) (symbol : Nat) (args : List Expr) :
    (Expr.value source symbol args).text
      = source.text ++ ".value(" ++ toString symbol ++ ", \x7b" ++ argsText args ++ "\x7d)" := by
  rw [show ", \x7b" = ", " ++ "\x7b" from rfl, Expr.text, Source.asks, argsText]
  simp only [String.append_assoc]

/-- The text of an atom, put together as its template does. -/
theorem holds_text (source : Source) (symbol : Nat) (args : List Expr) :
    (Test.holds source symbol args).text
      = source.text ++ ".holds(" ++ toString symbol ++ ", \x7b" ++ argsText args ++ "\x7d)" := by
  rw [show ", \x7b" = ", " ++ "\x7b" from rfl, Test.text, callText, Source.asks]
  simp only [String.append_assoc]

/-- The text of a check during the search, put together as its template does. -/
theorem satisfied_text (constraint : Nat) (args : List Expr) :
    (Test.satisfied constraint args).text
      = "Constraint" ++ toString constraint ++ "::satisfied(\x7b" ++ argsText args ++ "\x7d)" := by
  rw [show "::satisfied(\x7b" = "::satisfied(" ++ "\x7b" from rfl, Test.text, callText,
    satisfiedCall]
  simp only [String.append_assoc]

/-- The text of a check against static data, put together as its template does. -/
theorem constraintHolds_text (constraint : Nat) (args : List Expr) :
    (Test.constraintHolds constraint args).text
      = "statics.constraint_holds(" ++ toString constraint ++ ", \x7b" ++ argsText args
        ++ "\x7d)" := by
  rw [show ", \x7b" = ", " ++ "\x7b" from rfl, Test.text, callText]
  show "statics.constraint_holds(" ++ toString constraint ++ ", " ++ _ ++ _ ++ _ = _
  simp only [String.append_assoc]

end Code

namespace CodeScope

open Template Rendering

variable {s : CodeScope}

/-- The symbol that a step gets is the one of that name. -/
@[simp] theorem result_require_eq_ok {overrides : Overrides} {symbol : String} {sym : Symbol} :
    (s.require symbol).result overrides = .ok sym
      ↔ s.model.symbols.get? symbol = some sym := by
  rw [require, result_ofGround, SymbolTable.require]
  cases s.model.symbols.get? symbol <;> simp [Except.mapError]

/-- The rendered source of a symbol is the text of its source. -/
theorem source_eq_text (symbol : String) : s.source symbol = (s.sourceOf symbol).text := by
  rw [source, sourceOf]
  split <;> rfl

/-! ### Terms -/

/-- The code of a parameter is its place in the binding. -/
theorem exists_expr_of_paramCode {name text : String}
    (h : (s.paramCode name).result Overrides.none = .ok text) :
    ∃ position, text = (Code.Expr.binding position).text ∧
      s.action.paramPosition? name = some position := by
  rw [paramCode] at h
  cases hposition : s.action.paramPosition? name with
  | none => rw [hposition] at h; cases h
  | some position =>
    rw [hposition] at h
    cases h
    exact ⟨position, rfl, rfl⟩

/-- The code of an object is its id. -/
theorem exists_expr_of_objectCode {name text : String}
    (h : (s.objectCode name).result Overrides.none = .ok text) :
    ∃ id : Nat, text = (Code.Expr.literal id).text ∧ s.model.objects.id? name = some id := by
  rw [objectCode] at h
  cases hid : s.model.objects.id? name with
  | none => rw [hid] at h; cases h
  | some id =>
    rw [hid] at h
    cases h
    exact ⟨id, rfl, rfl⟩

mutual

/-- A rendered term is the text of an expression that stands for the code of the term. -/
theorem exists_expr_of_term (t : Term) {text : String}
    (h : (s.term t).result Overrides.none = .ok text) :
    ∃ e : Code.Expr, text = e.text ∧
      ∀ values binding, s.value? values binding t = some (e.eval values binding) := by
  cases t with
  | param name =>
    rw [term] at h
    obtain ⟨position, rfl, hposition⟩ := exists_expr_of_paramCode h
    refine ⟨.binding position, rfl, fun values binding => ?_⟩
    rw [value?, hposition]
    rfl
  | object name =>
    rw [term] at h
    obtain ⟨id, rfl, hid⟩ := exists_expr_of_objectCode h
    refine ⟨.literal id, rfl, fun values binding => ?_⟩
    rw [value?, hid]
    rfl
  | int n =>
    rw [term] at h
    cases h
    exact ⟨.literal n.toInt, rfl, fun values binding => rfl⟩
  | app symbol args =>
    simp only [term, result_bind_eq_ok, result_require_eq_ok] at h
    obtain ⟨sym, hsym, -, -, -, -, codes, hcodes, h⟩ := h
    -- The arguments come first, and are terms of any depth themselves.
    obtain ⟨es, rfl, heval⟩ := exists_exprs_of_terms args hcodes
    rw [result_fill_termValue] at h
    cases h
    refine ⟨.value (s.sourceOf symbol) sym.id es, ?_, fun values binding => ?_⟩
    · rw [Code.value_text, source_eq_text]
      rfl
    · rw [value?, hsym, heval]
      rfl

/-- Rendered terms are the texts of expressions that stand for the codes of the terms. -/
theorem exists_exprs_of_terms (ts : List Term) {codes : List String}
    (h : (s.terms ts).result Overrides.none = .ok codes) :
    ∃ es : List Code.Expr, codes = Code.texts es ∧
      ∀ values binding, s.values? values binding ts = some (Code.evals values binding es) := by
  cases ts with
  | nil =>
    rw [terms] at h
    cases h
    exact ⟨[], rfl, fun values binding => rfl⟩
  | cons t rest =>
    simp only [terms, result_bind_eq_ok] at h
    obtain ⟨code, hcode, codes, hcodes, h⟩ := h
    cases h
    obtain ⟨e, rfl, he⟩ := exists_expr_of_term t hcode
    obtain ⟨es, rfl, hes⟩ := exists_exprs_of_terms rest hcodes
    refine ⟨e :: es, rfl, fun values binding => ?_⟩
    rw [values?, he, hes]
    rfl

end

/-- Rendered arguments are the text of expressions that stand for their codes. -/
theorem exists_exprs_of_args (ts : List Term) {text : String}
    (h : (s.args ts).result Overrides.none = .ok text) :
    ∃ es : List Code.Expr, text = Code.argsText es ∧
      ∀ values binding, s.values? values binding ts = some (Code.evals values binding es) := by
  obtain ⟨codes, hcodes, rfl⟩ := (result_map_eq_ok _ _ _).1 h
  obtain ⟨es, rfl, heval⟩ := exists_exprs_of_terms ts hcodes
  exact ⟨es, rfl, heval⟩

/-! ### Conditions -/

/-- The code of an equality compares the two codes. -/
theorem exists_test_of_equalityCode {es : List Code.Expr} {text : String}
    (h : (s.equalityCode (Code.texts es)).result Overrides.none = .ok text) :
    ∃ t : Code.Test, text = t.text ∧ ∀ rt binding,
      sameCodes? (Code.evals rt.value binding es) = some (t.eval rt binding) := by
  match es with
  | [lhs, rhs] =>
    cases h
    refine ⟨.compare .equal lhs rhs, ?_, fun rt binding => rfl⟩
    rw [Code.Test.text, Comparison.operator, show " == " = " " ++ "==" ++ " " from rfl]
    simp only [String.append_assoc]
  | [] => cases h
  | [_] => cases h
  | _ :: _ :: _ :: _ => cases h

/-- The code of an atom over arguments in braces asks about the symbol. -/
theorem exists_test_of_holdsNary {sym : Symbol} {es : List Code.Expr} {text : String}
    (h : (Rendering.fill "holds_nary" [("source", s.source sym.name),
      ("symbol_id", toString sym.id), ("args", Code.argsText es)]).result Overrides.none
        = .ok text) :
    ∃ t : Code.Test, text = t.text ∧ ∀ (rt : Code.Runtime) binding,
      rt.holds (s.sourceOf sym.name) sym.id (Code.evals rt.value binding es)
        = t.eval rt binding := by
  rw [result_fill_holdsNary] at h
  refine ⟨.holds (s.sourceOf sym.name) sym.id es, ?_, fun rt binding => rfl⟩
  rw [← Except.ok.inj h, Code.holds_text, source_eq_text]

/-- The code of an atom asks about the symbol, with the unary question for a single argument. -/
theorem exists_test_of_holdsCode {sym : Symbol} {es : List Code.Expr} {text : String}
    (h : (s.holdsCode sym (Code.texts es)).result Overrides.none = .ok text) :
    ∃ t : Code.Test, text = t.text ∧ ∀ (rt : Code.Runtime) binding,
      rt.holds (s.sourceOf sym.name) sym.id (Code.evals rt.value binding es)
        = t.eval rt binding := by
  match es with
  | [e] =>
    -- The only argument stands without braces, in a question of its own name.
    have h : (Rendering.fill "holds_unary" [("source", s.source sym.name),
      ("symbol_id", toString sym.id), ("arg", e.text)]).result Overrides.none = .ok text := h
    rw [result_fill_holdsUnary] at h
    refine ⟨.holdsUnary (s.sourceOf sym.name) sym.id e, ?_, fun rt binding => ?_⟩
    · rw [← Except.ok.inj h, Code.Test.text, Code.Source.asks, source_eq_text]
    · rw [Code.Test.eval, rt.holdsUnary_eq]
      rfl
  | [] => exact exists_test_of_holdsNary h
  | _ :: _ :: _ => exact exists_test_of_holdsNary h

/-- A rendered atom is the text of a condition that holds when the atom does. -/
theorem exists_condition_of_atom {symbol : String} {args : List Term} {negated : Bool}
    {text : String} (h : (s.atom symbol args negated).result Overrides.none = .ok text) :
    ∃ c : Code.Condition, text = c.text ∧ ∀ rt binding,
      s.atomHolds? rt binding symbol args negated = some (c.eval rt binding) := by
  simp only [atom, positiveAtom, result_bind_eq_ok] at h
  obtain ⟨code, ⟨codes, hcodes, hcode⟩, h⟩ := h
  obtain ⟨es, rfl, heval⟩ := exists_exprs_of_terms args hcodes
  -- The test, which is that of the atom without its sign.
  obtain ⟨t, rfl, ht⟩ : ∃ t : Code.Test, code = t.text ∧ ∀ rt binding,
      s.positiveHolds? rt symbol (Code.evals rt.value binding es) = some (t.eval rt binding) := by
    by_cases heq : symbol = equality
    · simp only [if_pos heq, positiveHolds?] at hcode ⊢
      exact exists_test_of_equalityCode hcode
    · simp only [if_neg heq, result_bind_eq_ok, result_require_eq_ok, positiveHolds?] at hcode ⊢
      obtain ⟨sym, hsym, -, -, -, -, hcode⟩ := hcode
      obtain ⟨t, rfl, ht⟩ := exists_test_of_holdsCode hcode
      have hname : sym.name = symbol := by
        simpa using List.find?_some hsym
      refine ⟨t, rfl, fun rt binding => ?_⟩
      rw [hsym, Option.map_some, ← hname, ht]
  refine ⟨⟨negated, t⟩, ?_, fun rt binding => ?_⟩
  · cases negated <;> exact (Except.ok.inj h).symm
  · rw [atomHolds?, heval, Option.bind_eq_bind, Option.bind_some, ht]
    cases negated <;> rfl

/-- A rendered comparison is the text of a condition that holds when the terms compare. -/
theorem exists_condition_of_relation {op : Comparison} {lhs rhs : Term} {text : String}
    (h : (s.relation op lhs rhs).result Overrides.none = .ok text) :
    ∃ c : Code.Condition, text = c.text ∧ ∀ rt binding,
      s.relationHolds? rt binding op lhs rhs = some (c.eval rt binding) := by
  simp only [relation, result_bind_eq_ok] at h
  obtain ⟨l, hl, r, hr, h⟩ := h
  cases h
  obtain ⟨e, rfl, he⟩ := exists_expr_of_term lhs hl
  obtain ⟨e', rfl, he'⟩ := exists_expr_of_term rhs hr
  refine ⟨⟨false, .compare op e e'⟩, rfl, fun rt binding => ?_⟩
  rw [relationHolds?, he, he']
  rfl

/-- A rendered check of a planned constraint is the text of a condition that holds when the
constraint does. -/
theorem exists_condition_of_constraint {plan : ConstraintPlan} {use : ConstraintUse}
    {c : NumberedUse} (hc : plan.uses[c.id]? = some c) (hargs : c.args = use.args) {text : String}
    (h : (s.constraintCheck c).result Overrides.none = .ok text) :
    ∃ condition : Code.Condition, text = condition.text ∧ ∀ rt binding,
      s.useHolds? plan rt binding c.id use = some (condition.eval rt binding) := by
  simp only [constraintCheck, result_bind_eq_ok] at h
  obtain ⟨codes, hcodes, h⟩ := h
  obtain ⟨es, rfl, heval⟩ := exists_exprs_of_args c.args hcodes
  rw [hargs] at heval
  -- Code and meaning both turn on whether the constraint was decided before the search.
  cases hstatic : c.isStatic with
  | true =>
    rw [hstatic, if_pos rfl, result_fill_staticConstraintCheck] at h
    cases h
    refine ⟨⟨false, .constraintHolds c.id es⟩, (Code.constraintHolds_text _ _).symm,
      fun rt binding => ?_⟩
    rw [useHolds?, hc, heval]
    show some (if c.isStatic then _ else _) = _
    rw [hstatic]
    rfl
  | false =>
    rw [hstatic, if_neg (by decide), result_fill_constraintCheck] at h
    cases h
    refine ⟨⟨false, .satisfied c.id es⟩, (Code.satisfied_text _ _).symm, fun rt binding => ?_⟩
    rw [useHolds?, hc, heval]
    show some (if c.isStatic then _ else _) = _
    rw [hstatic]
    rfl

end CodeScope

end Grounder
