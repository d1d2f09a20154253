import Grounder.Task.Basic

/-!
# `Grounder.Proofs.Task.Subterms`: the terms that occur in a task

A term occurs in another one at any depth below function applications. `Term.subterms` lists these,
and `Formula.terms` and `Effect.terms` list what occurs in preconditions and effects.

The scans of a task look for one kind of subterm: `firstParamAmong?_eq_none_iff` says so of the
search for parameters, and `anyMentions_iff` of the search for applied symbols.
-/

set_option autoImplicit false

namespace Grounder

namespace Term

mutual

/-- The terms that occur in a term, itself included. -/
def subterms : Term → List Term
  | .param name => [.param name]
  | .object name => [.object name]
  | .int value => [.int value]
  | .app symbol args => .app symbol args :: subtermsOfAll args

/-- The terms that occur in some terms. -/
def subtermsOfAll : List Term → List Term
  | [] => []
  | t :: rest => t.subterms ++ subtermsOfAll rest

end

/-- What occurs in two lists of terms occurs in one of them. -/
theorem subtermsOfAll_append (ts ts' : List Term) :
    subtermsOfAll (ts ++ ts') = subtermsOfAll ts ++ subtermsOfAll ts' := by
  induction ts with
  | nil => rfl
  | cons t rest ih => rw [List.cons_append, subtermsOfAll, subtermsOfAll, ih, List.append_assoc]

/-- What holds of everything in some terms holds of everything in each of them. -/
theorem forall_subtermsOfAll_iff {P : Term → Prop} (ts : List Term) :
    (∀ u ∈ subtermsOfAll ts, P u) ↔ ∀ t ∈ ts, ∀ u ∈ t.subterms, P u := by
  induction ts with
  | nil => simp [subtermsOfAll]
  | cons t rest ih => rw [subtermsOfAll, List.forall_mem_append, List.forall_mem_cons, ih]

mutual

/-- A term has no first parameter if no parameter occurs in it. -/
theorem firstParam?_eq_none_iff (t : Term) :
    t.firstParam? = none ↔ ∀ u ∈ t.subterms, ∀ name, u ≠ .param name := by
  cases t with
  | param name => simp [firstParam?, subterms]
  | object name => simp [firstParam?, subterms]
  | int value => simp [firstParam?, subterms]
  | app symbol args =>
    rw [firstParam?, subterms, firstParamAmong?_eq_none_iff args, List.forall_mem_cons]
    simp

/-- Terms have no first parameter if no parameter occurs in them. -/
theorem firstParamAmong?_eq_none_iff (ts : List Term) :
    firstParamAmong? ts = none ↔ ∀ u ∈ subtermsOfAll ts, ∀ name, u ≠ .param name := by
  cases ts with
  | nil => simp [firstParamAmong?, subtermsOfAll]
  | cons t rest =>
    rw [firstParamAmong?, subtermsOfAll, List.forall_mem_append, ← firstParam?_eq_none_iff t,
      ← firstParamAmong?_eq_none_iff rest, Option.or_eq_none_iff]

end

mutual

/-- A term mentions the symbols that are applied in it. -/
theorem mentions_iff (p : String → Bool) (t : Term) :
    t.mentions p = true ↔ ∃ symbol args, .app symbol args ∈ t.subterms ∧ p symbol = true := by
  cases t with
  | param name => simp [mentions, subterms]
  | object name => simp [mentions, subterms]
  | int value => simp [mentions, subterms]
  | app symbol args =>
    rw [mentions, Bool.or_eq_true, anyMentions_iff p args]
    constructor
    · rintro (hp | ⟨symbol', args', hmem, hp⟩)
      · exact ⟨symbol, args, by rw [subterms]; exact List.mem_cons_self, hp⟩
      · exact ⟨symbol', args', by rw [subterms]; exact List.mem_cons_of_mem _ hmem, hp⟩
    · rintro ⟨symbol', args', hmem, hp⟩
      rw [subterms, List.mem_cons] at hmem
      rcases hmem with heq | hmem
      · cases heq
        exact Or.inl hp
      · exact Or.inr ⟨symbol', args', hmem, hp⟩

/-- Terms mention the symbols that are applied in them. -/
theorem anyMentions_iff (p : String → Bool) (ts : List Term) :
    anyMentions p ts = true ↔
      ∃ symbol args, .app symbol args ∈ subtermsOfAll ts ∧ p symbol = true := by
  cases ts with
  | nil => simp [anyMentions, subtermsOfAll]
  | cons t rest =>
    rw [anyMentions, Bool.or_eq_true, mentions_iff p t, anyMentions_iff p rest, subtermsOfAll]
    simp only [List.mem_append, or_and_right, exists_or]

end

end Term

namespace Formula

mutual

/-- The terms that occur in a precondition. -/
def terms : Formula → List Term
  | .true => []
  | .atom _ args _ => Term.subtermsOfAll args
  | .relation _ lhs rhs => Term.subtermsOfAll [lhs, rhs]
  | .and parts => termsOfAll parts
  | .constraint use => Term.subtermsOfAll use.args

/-- The terms that occur in formulas. -/
def termsOfAll : List Formula → List Term
  | [] => []
  | f :: rest => f.terms ++ termsOfAll rest

end

mutual

/-- What occurs in a precondition occurs in one of its conjuncts. -/
theorem mem_terms_iff (f : Formula) {u : Term} :
    u ∈ f.terms ↔ ∃ g ∈ f.conjuncts, u ∈ g.terms := by
  cases f with
  | true => simp [terms, conjuncts]
  | atom symbol args negated => simp [conjuncts]
  | relation op lhs rhs => simp [conjuncts]
  | and parts => rw [terms, conjuncts, mem_termsOfAll_iff parts]
  | constraint use => simp [conjuncts]

/-- What occurs in formulas occurs in one of their conjuncts. -/
theorem mem_termsOfAll_iff (fs : List Formula) {u : Term} :
    u ∈ termsOfAll fs ↔ ∃ g ∈ conjunctsOfAll fs, u ∈ g.terms := by
  cases fs with
  | nil => simp [termsOfAll, conjunctsOfAll]
  | cons f rest =>
    rw [termsOfAll, conjunctsOfAll, List.mem_append, mem_terms_iff f, mem_termsOfAll_iff rest]
    simp only [List.mem_append, or_and_right, exists_or]

end

end Formula

/-- The terms that occur in an effect. -/
def Effect.terms (e : Effect) : List Term :=
  Term.subtermsOfAll (e.args ++ e.value.toList) ++ e.condition.toList.flatMap Formula.terms

end Grounder
