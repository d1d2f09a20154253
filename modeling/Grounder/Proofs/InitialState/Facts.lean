import Grounder.Proofs.InitialState.Elements

/-!
# `Grounder.Proofs.InitialState.Facts`: the facts of a compiled state

Every entry in the extension of a symbol comes from a valid element about this symbol. So its
arguments fit the parameters, and its value is one that the symbol takes
(`factFits_of_mem_entries`). No element about the symbol is left out, and none counts twice
(`Records.factsOf_perm`).
-/

set_option autoImplicit false

namespace Grounder

namespace InitialState

open VariableNumbering

/-- A value that a symbol with this codomain takes. Predicates have none, and their facts are
true. -/
def ValueBelongs (table : SymbolTable) : Option String → FactValue → Prop
  | none, value => value = .bool true
  | some type, value =>
    if isNumericType type = true then ∃ n, value = .int n
    else ∃ name listing, value = .object name ∧ table.domain? type = some listing ∧ name ∈ listing

/-- An entry that may stand in the extension of a symbol. -/
structure FactFits (table : SymbolTable) (c : Classification) (s : Symbol)
    (fact : Tuple × FactValue) : Prop where
  args : List.Forall₂ (ArgumentFits table c s) s.params fact.1
  value : ValueBelongs table s.codomain fact.2

/-- The value that a valid element records belongs to the codomain of its symbol. -/
theorem valueBelongs_factValue {table : SymbolTable} {s : Symbol} {e : InitialFact}
    (h : ValueFits table s e) : ValueBelongs table s.codomain (factValue s e) := by
  cases e with
  | atom symbol args negated =>
    rw [h.1]
    rfl
  | assign symbol args raw =>
    obtain ⟨codomain, hcodomain, hraw⟩ := h
    rw [factValue, hcodomain, Option.any_some]
    show if isNumericType codomain = true then _ else _
    by_cases hnumeric : isNumericType codomain = true
    · rw [if_pos hnumeric, if_pos hnumeric]
      exact ⟨_, rfl⟩
    · rw [if_neg hnumeric] at hraw
      obtain ⟨listing, hlisting, hmem⟩ := hraw
      rw [if_neg hnumeric, if_neg hnumeric]
      exact ⟨_, listing, rfl, hlisting, hmem⟩

/-- The entries of a compiled state fit their symbols. -/
theorem factFits_of_mem_entries {table : SymbolTable} {c : Classification} {order : SymbolOrder}
    {numbering : VariableNumbering} {elements : List InitialFact} {state : InitialState}
    (hnodup : table.names.Nodup) (hnumbering : ofSymbols table c order = .ok numbering)
    (hstate : ofElements table numbering elements = .ok state) {s : Symbol}
    (hs : s ∈ table.symbols) {a : Assignment} (ha : state.get? s.name = some a)
    {fact : Tuple × FactValue} (hfact : fact ∈ a.entries) : FactFits table c s fact := by
  rcases ofElements_cases hnodup hnumbering elements with ⟨final, hfinal, hrecords, haccepts⟩ |
    ⟨_, _, _, error, -, herror, -⟩
  · rw [hstate] at hfinal
    cases hfinal
    -- The entry is the fact of an element, and that element is about this symbol.
    have hmem : (⟨s.name, fact.1⟩, fact.2) ∈ state.facts :=
      (mem_facts (hrecords.1.nodup hnodup)).2 ⟨a, ha, hfact⟩
    obtain ⟨e, he, heq⟩ := List.mem_map.1 (hrecords.2.mem_iff.1 hmem)
    obtain ⟨s', hvalid⟩ := haccepts.1 e he
    obtain ⟨hs', hname⟩ := (SymbolTable.get?_eq_some hnodup).1 hvalid.declared
    rw [factOf, hvalid.declared, Option.map_some, Option.getD_some] at heq
    obtain ⟨hvariable, hvalue⟩ := Prod.ext_iff.1 heq
    have hsymbol : e.symbol = s.name := congrArg StateVariable.symbol hvariable
    have hargs : e.args = fact.1 := congrArg StateVariable.args hvariable
    have hsame : s' = s := List.inj_on_of_nodup_map hnodup hs' hs (hname.trans hsymbol)
    subst hsame
    have hvalue : factValue s' e = fact.2 := hvalue
    exact ⟨hargs ▸ hvalid.args, hvalue ▸ valueBelongs_factValue hvalid.value⟩
  · rw [hstate] at herror
    cases herror

/-! ### The facts about one symbol -/

/-- The facts about a symbol are those of its extension. -/
theorem filter_facts {state : InitialState} (hnodup : (state.assignments.map Prod.fst).Nodup)
    {symbol : String} {a : Assignment} (ha : state.get? symbol = some a) :
    state.facts.filter (·.1.symbol = symbol) = factsOf symbol a := by
  obtain ⟨before, after, hassignments, hothers⟩ := (get?_eq_some hnodup).1 ha
  have hnone : ∀ entries ⊆ before ++ after,
      (entries.flatMap fun entry => factsOf entry.1 entry.2).filter (·.1.symbol = symbol) = [] := by
    intro entries hsub
    rw [List.filter_eq_nil_iff]
    intro fact hfact
    obtain ⟨entry, hentry, hfact⟩ := List.mem_flatMap.1 hfact
    obtain ⟨_, -, rfl⟩ := List.mem_map.1 hfact
    simpa using hothers entry (hsub hentry)
  have hall : (factsOf symbol a).filter (·.1.symbol = symbol) = factsOf symbol a := by
    rw [List.filter_eq_self]
    intro fact hfact
    obtain ⟨_, -, rfl⟩ := List.mem_map.1 hfact
    exact decide_eq_true rfl
  rw [facts_eq, hassignments, List.flatMap_append, List.flatMap_cons, List.filter_append,
    List.filter_append, hall, hnone before (List.subset_append_left ..),
    hnone after (List.subset_append_right ..), List.nil_append, List.append_nil]

/-- The extension of a symbol has one entry for each element about the symbol. -/
theorem Records.factsOf_perm {table : SymbolTable} {state : InitialState}
    {elements : List InitialFact} (h : Records table state elements) (hnodup : table.names.Nodup)
    {symbol : String} {a : Assignment} (ha : state.get? symbol = some a) :
    (factsOf symbol a).Perm ((elements.filter (·.symbol = symbol)).map (factOf table)) := by
  rw [← filter_facts (h.1.nodup hnodup) ha]
  refine (h.2.filter _).trans (.of_eq ?_)
  rw [List.filter_map]
  rfl

end InitialState

end Grounder
