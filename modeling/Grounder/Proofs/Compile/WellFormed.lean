import Grounder.Proofs.Compile.Acceptance

/-!
# `Grounder.Proofs.Compile.WellFormed`: which actions have a unit

The checks of an action are made while its unit is rendered, here and there between the pieces of
code. `WellFormedTerm`, `WellFormedConjunct` and `WellFormedEffect` say in one place what all of
them together ask for, without a word about code. With the built-in templates, an action has a unit
if and only if it is well-formed (`actionUnit_iff_wellFormed`).

Equality takes two arguments. A task may declare a predicate of its name with more of them, but its
atoms are still compared as two objects would be, so they have no code
(`ternary_equality_refused`).
-/

set_option autoImplicit false

namespace Grounder

namespace CodeScope

open Template Rendering Proofs.Support

/-! ### Well-formed actions -/

/-- A term that an action can use: everything in it is known, and functions are applied to as many
terms as they take. -/
inductive WellFormedTerm (s : CodeScope) : Term → Prop where
  | param {name : String} :
    name ∈ s.action.params.map (·.name) → WellFormedTerm s (.param name)
  | object {name : String} {id : Nat} :
    s.model.objects.id? name = some id → WellFormedTerm s (.object name)
  | int (value : Int64) : WellFormedTerm s (.int value)
  | app {symbol : String} {sym : Symbol} {args : List Term} :
    s.model.symbols.get? symbol = some sym → sym.isPredicate = false → sym.arity = args.length →
    (∀ t ∈ args, WellFormedTerm s t) → WellFormedTerm s (.app symbol args)

/-- A conjunct that an action can have in its precondition. -/
inductive WellFormedConjunct (s : CodeScope) : Formula → Prop where
  /-- Equality compares two objects, whether it is declared or not. -/
  | equality {args : List Term} {negated : Bool} :
    args.length = 2 → (∀ t ∈ args, s.WellFormedTerm t) →
    WellFormedConjunct s (.atom equality args negated)
  | atom {symbol : String} {sym : Symbol} {args : List Term} {negated : Bool} :
    symbol ≠ Grounder.equality → s.model.symbols.get? symbol = some sym → sym.isPredicate = true →
    sym.arity = args.length → (∀ t ∈ args, s.WellFormedTerm t) →
    WellFormedConjunct s (.atom symbol args negated)
  | relation {op : Comparison} {lhs rhs : Term} :
    s.WellFormedTerm lhs → s.WellFormedTerm rhs → WellFormedConjunct s (.relation op lhs rhs)
  | constraint {use : ConstraintUse} :
    (∀ t ∈ use.args, s.WellFormedTerm t) → WellFormedConjunct s (.constraint use)

/-- What every effect on a symbol needs, whichever value it sets. -/
structure Targets (s : CodeScope) (e : Effect) (sym : Symbol) : Prop where
  unconditional : e.condition = none
  declared : s.model.symbols.get? e.symbol = some sym
  fluent : s.model.classification.isFluent e.symbol = true
  arity : sym.arity = e.args.length
  args : ∀ t ∈ e.args, s.WellFormedTerm t
  /-- No argument has to be looked up in the state that the effect changes. -/
  plain : ∀ t ∈ e.args, t.isApp = false

/-- An effect that an action can have. -/
inductive WellFormedEffect (s : CodeScope) (e : Effect) : Prop where
  /-- A predicate is made true or false by the sign of the effect. -/
  | predicate {sym : Symbol} :
    s.Targets e sym → sym.isPredicate = true → e.value = none → WellFormedEffect s e
  /-- A function is given a value. -/
  | function {sym : Symbol} {value : Term} :
    s.Targets e sym → sym.isPredicate = false → e.negated = false → e.value = some value →
    s.WellFormedTerm value → WellFormedEffect s e

/-- An action all of whose conjuncts and effects are well-formed. -/
structure WellFormed (s : CodeScope) : Prop where
  conjuncts : ∀ f ∈ s.action.precondition.conjuncts, s.WellFormedConjunct f
  effects : ∀ e ∈ s.action.effects, s.WellFormedEffect e

variable {s : CodeScope}

/-! ### Terms -/

/-- A name has a position among the parameters of an action if it is the name of one. -/
theorem exists_position_iff {name : String} :
    (∃ position, s.action.paramPosition? name = some position) ↔
      name ∈ s.action.params.map (·.name) := by
  rw [Action.paramPosition?, ← Option.isSome_iff_exists, List.findIdx?_isSome, List.any_eq_true,
    List.mem_map]
  simp only [decide_eq_true_eq]

mutual

/-- A term is well-formed if everything in it refers to something. -/
theorem wellFormedTerm_of_resolves (t : Term) (h : ∀ u ∈ t.subterms, s.Resolves u) :
    s.WellFormedTerm t := by
  cases t with
  | param name =>
    rw [Term.subterms, List.forall_mem_singleton] at h
    exact .param (exists_position_iff.1 h)
  | object name =>
    rw [Term.subterms, List.forall_mem_singleton] at h
    obtain ⟨id, hid⟩ := h
    exact .object hid
  | int value => exact .int value
  | app symbol args =>
    rw [Term.subterms, List.forall_mem_cons] at h
    obtain ⟨⟨sym, hsym, hfunction, harity⟩, hargs⟩ := h
    -- The arguments are smaller, and everything in them is in the application, too.
    exact .app hsym hfunction harity (wellFormedTerms_of_resolve args hargs)

/-- Terms are well-formed if everything in them refers to something. -/
theorem wellFormedTerms_of_resolve (ts : List Term)
    (h : ∀ u ∈ Term.subtermsOfAll ts, s.Resolves u) : ∀ t ∈ ts, s.WellFormedTerm t := by
  cases ts with
  | nil =>
    intro t ht
    cases ht
  | cons t rest =>
    rw [Term.subtermsOfAll, List.forall_mem_append] at h
    rw [List.forall_mem_cons]
    exact ⟨wellFormedTerm_of_resolves t h.1, wellFormedTerms_of_resolve rest h.2⟩

end

/-- Everything in a well-formed term refers to something. -/
theorem WellFormedTerm.resolves {t : Term} (h : s.WellFormedTerm t) :
    ∀ u ∈ t.subterms, s.Resolves u := by
  induction h with
  | param hname =>
    rw [Term.subterms, List.forall_mem_singleton]
    exact exists_position_iff.2 hname
  | object hid =>
    rw [Term.subterms, List.forall_mem_singleton]
    exact ⟨_, hid⟩
  | int value =>
    rw [Term.subterms, List.forall_mem_singleton]
    trivial
  | app hsym hfunction harity _ ih =>
    rw [Term.subterms, List.forall_mem_cons, Term.forall_subtermsOfAll_iff]
    exact ⟨⟨_, hsym, hfunction, harity⟩, ih⟩

/-- A term has code exactly if it is well-formed. -/
theorem exists_term_iff {t : Term} :
    (∃ code, (s.term t).result Overrides.none = .ok code) ↔ s.WellFormedTerm t := by
  constructor
  · rintro ⟨code, hcode⟩
    exact wellFormedTerm_of_resolves t (resolves_of_term t hcode)
  · intro h
    exact exists_term t h.resolves

/-- Terms are well-formed exactly if everything in them refers to something. -/
theorem resolve_iff_wellFormedTerms {ts : List Term} :
    (∀ u ∈ Term.subtermsOfAll ts, s.Resolves u) ↔ ∀ t ∈ ts, s.WellFormedTerm t := by
  refine ⟨wellFormedTerms_of_resolve ts, fun h => (Term.forall_subtermsOfAll_iff ts).2 ?_⟩
  intro t ht
  exact (h t ht).resolves

/-- Arguments have code exactly if all of them are well-formed. -/
theorem exists_args_iff {ts : List Term} :
    (∃ codes, (s.args ts).result Overrides.none = .ok codes) ↔ ∀ t ∈ ts, s.WellFormedTerm t := by
  simp only [args, result_map_eq_ok]
  constructor
  · rintro ⟨-, codes, hcodes, -⟩
    exact resolve_iff_wellFormedTerms.1 (resolves_of_terms ts hcodes)
  · intro h
    obtain ⟨codes, hcodes⟩ := exists_terms ts (resolve_iff_wellFormedTerms.2 h)
    exact ⟨_, codes, hcodes, rfl⟩

/-! ### Preconditions -/

/-- A conjunct is well-formed if it has a predicate where it needs one, and everything in it refers
to something. -/
theorem wellFormedConjunct_iff {f : Formula} (hf : f.IsConjunct) :
    s.WellFormedConjunct f ↔ s.HasPredicate f ∧ ∀ u ∈ f.terms, s.Resolves u := by
  cases f with
  | true => exact hf.elim
  | and parts => exact hf.elim
  | atom symbol args negated =>
    rw [HasPredicate, Formula.terms, resolve_iff_wellFormedTerms]
    -- The symbol decides which of the two rules for atoms applies.
    constructor
    · intro h
      cases h with
      | equality hlength hargs => exact ⟨by rw [if_pos rfl]; exact hlength, hargs⟩
      | atom hne hsym hpredicate harity hargs =>
        exact ⟨by rw [if_neg hne]; exact ⟨_, hsym, hpredicate, harity⟩, hargs⟩
    · rintro ⟨hpredicate, hargs⟩
      split at hpredicate
      · rename_i heq
        subst heq
        exact .equality hpredicate hargs
      · rename_i hne
        obtain ⟨sym, hsym, hpredicate, harity⟩ := hpredicate
        exact .atom hne hsym hpredicate harity hargs
  | relation op lhs rhs =>
    rw [Formula.terms, resolve_iff_wellFormedTerms]
    constructor
    · intro h
      cases h with
      | relation hlhs hrhs => exact ⟨trivial, by simp [hlhs, hrhs]⟩
    · rintro ⟨-, h⟩
      exact .relation (h lhs (by simp)) (h rhs (by simp))
  | constraint use =>
    rw [Formula.terms, resolve_iff_wellFormedTerms]
    constructor
    · intro h
      cases h with
      | constraint hargs => exact ⟨trivial, hargs⟩
    · rintro ⟨-, hargs⟩
      exact .constraint hargs

/-- Everything in a precondition refers to something exactly if its conjuncts are well-formed. -/
theorem resolvesPrecondition_iff_wellFormed : s.ResolvesPrecondition ↔
    ∀ f ∈ s.action.precondition.conjuncts, s.WellFormedConjunct f := by
  rw [resolvesPrecondition_iff]
  refine forall₂_congr fun f hf => ?_
  exact (wellFormedConjunct_iff (Formula.isConjunct_of_mem_conjuncts _ f hf)).symm

/-! ### Effects -/

/-- The value of an effect has code if it is one for the symbol. -/
theorem exists_effectValue_iff {sym : Symbol} {e : Effect} :
    (∃ code, (s.effectValue sym e).result Overrides.none = .ok code) ↔
      (sym.isPredicate = true ∧ e.value = none) ∨
        (sym.isPredicate = false ∧ e.negated = false ∧
          ∃ value, e.value = some value ∧ s.WellFormedTerm value) := by
  rw [effectValue]
  -- Only the value of a function is rendered. That of a predicate is the sign of the effect.
  cases sym.isPredicate with
  | true => simp
  | false =>
    cases e.value with
    | none => simp
    | some value => simp [exists_term_iff]

/-- An effect has a statement exactly if it is well-formed. -/
theorem exists_effectLine_iff {e : Effect} :
    (∃ line, (s.effectLine e).result Overrides.none = .ok line) ↔ s.WellFormedEffect e := by
  have hname : ∀ sym : Symbol, s.model.symbols.get? e.symbol = some sym → sym.name = e.symbol := by
    intro sym hsym
    simpa using List.find?_some hsym
  simp only [effectLine, result_bind_eq_ok, result_require_eq_ok, result_refuse_eq_ok,
    result_checkArity_eq_ok, result_fill_effect, Bool.not_eq_false', List.any_eq_false,
    Option.isSome_eq_false_iff, Option.isNone_iff_eq_none, Bool.not_eq_true]
  constructor
  · rintro ⟨line, -, hcondition, sym, hsym, -, hfluent, -, harity, -, hplain, value, hvalue,
      codes, hcodes, -⟩
    have htargets : s.Targets e sym :=
      ⟨hcondition, hsym, hname sym hsym ▸ hfluent, harity, exists_args_iff.1 ⟨codes, hcodes⟩,
        hplain⟩
    rcases exists_effectValue_iff.1 ⟨value, hvalue⟩ with
      ⟨hpredicate, hnone⟩ | ⟨hfunction, hpositive, value, hsome, hwell⟩
    · exact .predicate htargets hpredicate hnone
    · exact .function htargets hfunction hpositive hsome hwell
  · intro h
    -- Both kinds of effects pass the same checks and differ in their values only.
    obtain ⟨sym, htargets, value, hvalue⟩ : ∃ sym, s.Targets e sym ∧
        ∃ code, (s.effectValue sym e).result Overrides.none = .ok code := by
      cases h with
      | @predicate sym htargets hpredicate hnone =>
        exact ⟨sym, htargets, exists_effectValue_iff.2 (.inl ⟨hpredicate, hnone⟩)⟩
      | @function sym value htargets hfunction hpositive hsome hwell =>
        exact ⟨sym, htargets, exists_effectValue_iff.2
          (.inr ⟨hfunction, hpositive, value, hsome, hwell⟩)⟩
    obtain ⟨codes, hcodes⟩ := exists_args_iff.2 htargets.args
    exact ⟨_, (), htargets.unconditional, sym, htargets.declared, (),
      (hname sym htargets.declared).symm ▸ htargets.fluent, (), htargets.arity, (), htargets.plain,
      value, hvalue, codes, hcodes, _, rfl, rfl⟩

/-- Effects have statements exactly if all of them are well-formed. -/
theorem exists_effectLines_iff {effects : List Effect} :
    (∃ lines, (s.effectLines effects).result Overrides.none = .ok lines) ↔
      ∀ e ∈ effects, s.WellFormedEffect e := by
  induction effects with
  | nil => exact iff_of_true ⟨[], rfl⟩ fun e he => absurd he List.not_mem_nil
  | cons e rest ih =>
    rw [List.forall_mem_cons, ← exists_effectLine_iff, ← ih]
    simp only [effectLines, result_bind_eq_ok]
    constructor
    · rintro ⟨-, line, hline, lines, hlines, -⟩
      exact ⟨⟨line, hline⟩, lines, hlines⟩
    · rintro ⟨⟨line, hline⟩, lines, hlines⟩
      exact ⟨_, line, hline, lines, hlines, rfl⟩

/-- The effects of an action have code exactly if all of them are well-formed. -/
theorem exists_effectCode_iff :
    (∃ code, s.effectCode.result Overrides.none = .ok code) ↔
      ∀ e ∈ s.action.effects, s.WellFormedEffect e := by
  rw [← exists_effectLines_iff]
  simp only [effectCode, result_bind_eq_ok]
  constructor
  · rintro ⟨-, lines, hlines, -⟩
    exact ⟨lines, hlines⟩
  · rintro ⟨lines, hlines⟩
    exact ⟨_, lines, hlines, rfl⟩

end CodeScope

/-! ### Units -/

/-- With the built-in templates, the actions of a task that have a unit are the well-formed ones. -/
theorem actionUnit_iff_wellFormed {t : Task} {o : CompileOptions} {g : CodeSource}
    (hg : CodeSource.ofTask t o = .ok g) (requests : List String) {position : Nat} {a : Action}
    (ha : t.actions[position]? = some a) :
    (∃ unit, ((g.actionUnit position).run Overrides.none
        (TemplateCache.afterRequests Overrides.none requests)).1 = .ok unit) ↔
      (⟨g.model, a⟩ : CodeScope).WellFormed := by
  -- The cache does not matter, and what is left is asked of the precondition and of the effects.
  rw [Rendering.run_fst _ (TemplateCache.faithful_afterRequests Overrides.none requests),
    CodeSource.exists_actionUnit_iff hg ha, CodeScope.resolvesPrecondition_iff_wellFormed,
    CodeScope.exists_effectCode_iff]
  constructor
  · rintro ⟨hconjuncts, heffects⟩
    exact ⟨hconjuncts, heffects⟩
  · intro h
    exact ⟨h.conjuncts, h.effects⟩

/-- Lamps that can be lit, with an action. -/
def litTask (a : Action) : Task := { lampTask a with predicates := [⟨"lit", ["color"]⟩] }

/-- An action with conjuncts and effects of several kinds. -/
def relayAction : Action :=
  ⟨"relay", [⟨"x", "color"⟩],
    .and [.atom equality [.param "x", .app "front" []] true, .and [.true,
      .constraint ⟨"alldiff", [], [.app "front" [], .app "back" []]⟩]],
    [⟨"front", [], some (.param "x"), false, none⟩, ⟨"lit", [.object "red"], none, true, none⟩]⟩

/-- The action `relay` has a unit, so it is well-formed. -/
theorem actionUnit_iff_wellFormed_relay :
    ∃ g, CodeSource.ofTask (litTask relayAction) ⟨.declaration, false⟩ = .ok g ∧
      (litTask relayAction).actions[0]? = some relayAction ∧
      (⟨g.model, relayAction⟩ : CodeScope).WellFormed := by
  obtain ⟨g, hg⟩ : ∃ g, CodeSource.ofTask (litTask relayAction) ⟨.declaration, false⟩ = .ok g :=
    Proofs.Support.exists_eq_ok (by decide +kernel)
  have hrenders : g.rendersAction 0 = true :=
    Proofs.Support.feature_eq hg (f := (·.rendersAction 0)) (by decide +kernel)
  exact ⟨g, hg, rfl, (actionUnit_iff_wellFormed hg [] rfl).1
    (CodeSource.exists_unit_of_rendersAction hrenders [])⟩

/-- A task that declares an equality of three arguments, and an action that uses it. -/
def ternaryEqualityTask : Task :=
  { lampTask ⟨"compare", [], .atom equality [.int 1, .int 2, .int 3] false, []⟩ with
    predicates := [⟨equality, ["int", "int", "int"]⟩] }

/-- The equality of `ternaryEqualityTask` is a declared predicate, and the only conjunct of its
action applies it to as many integers as it takes. There is no unit for the action all the same,
since equality takes two arguments. -/
theorem ternary_equality_refused :
    ∃ g a sym args, CodeSource.ofTask ternaryEqualityTask ⟨.declaration, false⟩ = .ok g ∧
      ternaryEqualityTask.actions[0]? = some a ∧ a.effects = [] ∧
      a.precondition.conjuncts = [.atom equality args false] ∧
      g.model.symbols.get? equality = some sym ∧ sym.isPredicate = true ∧
      sym.arity = args.length ∧ (∀ t ∈ args, (⟨g.model, a⟩ : CodeScope).WellFormedTerm t) ∧
      ((g.actionUnit 0).run Overrides.none (TemplateCache.afterRequests Overrides.none [])).1
        = .error (.invalidTerm "compare" (.argumentCount "equality" 2 3)) := by
  obtain ⟨g, hg⟩ : ∃ g, CodeSource.ofTask ternaryEqualityTask ⟨.declaration, false⟩ = .ok g :=
    Proofs.Support.exists_eq_ok (by decide +kernel)
  obtain ⟨htask, -⟩ := CodeSource.task_and_plan_of_ofTask hg
  have hsym : g.model.symbols.get? equality
      = some ⟨⟨equality, ["int", "int", "int"], none⟩, 0⟩ :=
    Proofs.Support.feature_eq hg (f := fun g => g.model.symbols.get? equality) (by decide +kernel)
  refine ⟨g, _, _, _, hg, rfl, rfl, rfl, hsym, rfl, rfl, ?_, ?_⟩
  · intro t ht
    simp only [List.mem_cons, List.not_mem_nil, or_false] at ht
    rcases ht with rfl | rfl | rfl <;> exact .int _
  · rw [CodeSource.actionUnit, htask]
    rfl

end Grounder
