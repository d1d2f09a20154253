import Grounder.Proofs.VariableNumbering
import Mathlib.Data.List.Perm.Basic
import Mathlib.Data.Set.Function

/-!
# `Grounder.Proofs.Renumbering`: the same variables under other handles

The order of the symbols decides which handle a variable gets. It decides neither whether the
numbering of a task succeeds nor which variables have handles. A numbering succeeds exactly when
the variables of all fluent symbols can be enumerated and are distinct and the strides are words,
and this does not depend on an order (`ofSymbols_order`).

`rehandle` takes a handle of one numbering to the handle that the same variable has in another one.
Between numberings with the same variables it is a bijection (`bijOn_rehandle`).
-/

set_option autoImplicit false

namespace Grounder

namespace VariableNumbering

open Proofs.Support Odometer

/-- Numberings with the same variables and with blocks for the same symbols. -/
structure SameVariables (numbering numbering' : VariableNumbering) : Prop where
  vars : numbering.vars.Perm numbering'.vars
  blocks : (numbering.blocks.map (·.symbol)).Perm (numbering'.blocks.map (·.symbol))

/-! ### When a numbering succeeds -/

/-- The variables of a symbol that has strides, in the order of the odometer over its domains. -/
def Enumerates (table : SymbolTable) (s : Symbol) (vs : List StateVariable) : Prop :=
  ∃ domains, HasDomains table s domains ∧ (∃ found, strides domains = .ok found) ∧
    vs = (tuples domains).map fun tuple => ⟨s.name, tuple⟩

variable {table : SymbolTable} {c : Classification} {numbering numbering' : VariableNumbering}

/-- Variables that are distinct and new can be registered. -/
theorem exists_registerAll {vs : List StateVariable} (h : (numbering.vars ++ vs).Nodup) :
    ∃ numbering', numbering.registerAll vs = .ok numbering' := by
  induction vs generalizing numbering with
  | nil => exact ⟨numbering, rfl⟩
  | cons v vs ih =>
    -- The first variable can be registered, and the others are still new after it.
    have hnew : v ∉ numbering.vars := by
      intro hv
      exact (List.nodup_append.1 h).2.2 v hv v List.mem_cons_self rfl
    obtain ⟨next, hnext⟩ : ∃ next, numbering.register v = .ok next := by
      rw [register, dif_neg hnew]
      exact ⟨_, rfl⟩
    have hvars := (register_eq_ok hnext).1
    rw [List.append_cons, ← hvars] at h
    obtain ⟨filled, hfilled⟩ := ih h
    refine ⟨filled, ?_⟩
    rw [registerAll, List.foldlM_cons, hnext]
    exact hfilled

/-- A symbol can be added if its variables can be enumerated and are distinct and new. -/
theorem exists_addSymbol {s : Symbol} {vs : List StateVariable} (h : Enumerates table s vs)
    (hnodup : (numbering.vars ++ vs).Nodup) :
    ∃ numbering', addSymbol table numbering s = .ok numbering' ∧
      numbering'.vars = numbering.vars ++ vs := by
  obtain ⟨domains, hdomains, ⟨found, hfound⟩, rfl⟩ := h
  obtain ⟨filled, hfilled⟩ := exists_registerAll hnodup
  rw [addSymbol]
  exact ⟨_, bind_eq_ok.2 ⟨domains, argumentDomains_eq_ok.2 hdomains,
    bind_eq_ok.2 ⟨filled, hfilled, bind_eq_ok.2 ⟨found, hfound, rfl⟩⟩⟩,
    (registerAll_eq_ok hfilled).1⟩

/-- Adding a symbol appends its variables. -/
theorem enumerates_of_addSymbol {s : Symbol} (h : addSymbol table numbering s = .ok numbering') :
    ∃ vs, Enumerates table s vs ∧ numbering'.vars = numbering.vars ++ vs := by
  rw [addSymbol] at h
  obtain ⟨domains, hdomains, h⟩ := bind_eq_ok.1 h
  obtain ⟨filled, hfilled, h⟩ := bind_eq_ok.1 h
  obtain ⟨found, hfound, h⟩ := bind_eq_ok.1 h
  cases h
  exact ⟨_, ⟨domains, argumentDomains_eq_ok.1 hdomains, ⟨found, hfound⟩, rfl⟩,
    (registerAll_eq_ok hfilled).1⟩

/-- Symbols can be added if the variables of all of them are distinct and new. -/
theorem exists_foldlM_addSymbol {symbols : List Symbol} {parts : List (List StateVariable)}
    (h : List.Forall₂ (Enumerates table) symbols parts)
    (hnodup : (numbering.vars ++ parts.flatten).Nodup) :
    ∃ numbering', symbols.foldlM (addSymbol table) numbering = .ok numbering' ∧
      numbering'.vars = numbering.vars ++ parts.flatten := by
  induction h generalizing numbering with
  | nil => exact ⟨numbering, rfl, (List.append_nil _).symm⟩
  | cons hfirst _ ih =>
    rw [List.flatten_cons, ← List.append_assoc] at hnodup
    obtain ⟨next, hnext, hvars⟩ := exists_addSymbol hfirst (List.nodup_append.1 hnodup).1
    rw [← hvars] at hnodup
    obtain ⟨final, hfinal, hvars'⟩ := ih hnodup
    refine ⟨final, ?_, ?_⟩
    · rw [List.foldlM_cons, hnext]
      exact hfinal
    · rw [hvars', hvars, List.flatten_cons, List.append_assoc]

/-- The numbering of a task has the variables of its fluent symbols, symbol by symbol. -/
theorem enumerates_of_ofSymbols {order : SymbolOrder}
    (h : ofSymbols table c order = .ok numbering) :
    ∃ parts, List.Forall₂ (Enumerates table) (orderedFluents table c order) parts ∧
      numbering.vars = parts.flatten := by
  -- The variables so far are those of the symbols so far.
  refine foldlM_invariant (b := empty) (P := fun done numbering =>
    ∃ parts, List.Forall₂ (Enumerates table) done parts ∧ numbering.vars = parts.flatten)
    ⟨[], .nil, rfl⟩ ?_ h
  rintro done s numbering numbering' - ⟨parts, hparts, hvars⟩ hstep
  obtain ⟨vs, hvs, hvars'⟩ := enumerates_of_addSymbol hstep
  refine ⟨parts ++ [vs], List.rel_append hparts (.cons hvs .nil), ?_⟩
  rw [hvars', hvars, List.flatten_append, List.flatten_singleton]

/-! ### Two orders -/

/-- The fluent symbols are the same in every order. -/
theorem orderedFluents_perm (table : SymbolTable) (c : Classification)
    (order order' : SymbolOrder) :
    (orderedFluents table c order).Perm (orderedFluents table c order') := by
  have hfluents : ∀ order, (orderedFluents table c order).Perm
      (table.symbols.filter fun s => c.isFluent s.name) := by
    intro order
    cases order with
    | declaration => exact .refl _
    | arity => exact List.mergeSort_perm _ _
  exact (hfluents order).trans (hfluents order').symm

/-- If the numbering of a task succeeds in one order, it succeeds in every other one and has the
same variables. -/
theorem ofSymbols_order {order : SymbolOrder} (order' : SymbolOrder)
    (h : ofSymbols table c order = .ok numbering) :
    ∃ numbering', ofSymbols table c order' = .ok numbering' ∧
      SameVariables numbering numbering' := by
  obtain ⟨parts, hparts, hvars⟩ := enumerates_of_ofSymbols h
  have hperm := orderedFluents_perm table c order' order
  -- The symbols in the other order come with the same lists of variables, in another order.
  obtain ⟨parts', hparts', hflatten⟩ := List.perm_comp_forall₂ hperm hparts
  -- The first numbering has no variable twice, and these are its variables.
  have hnodup : (empty.vars ++ parts'.flatten).Nodup := by
    rw [show empty.vars ++ parts'.flatten = parts'.flatten from rfl,
      hflatten.flatten.nodup_iff, ← hvars]
    exact numbering.nodup
  obtain ⟨numbering', hnumbering', hvars'⟩ := exists_foldlM_addSymbol hparts' hnodup
  refine ⟨numbering', hnumbering', ?_, ?_⟩
  · rw [hvars, hvars']
    exact hflatten.flatten.symm
  · have hsymbols := map_symbol_of_describes (ofSymbols_describes h).1
    have hsymbols' := map_symbol_of_describes (ofSymbols_describes hnumbering').1
    rw [hsymbols, hsymbols']
    exact hperm.symm.map _

namespace SameVariables

/-- There are as many handles. -/
theorem size_eq (h : SameVariables numbering numbering') : numbering.size = numbering'.size :=
  h.vars.length_eq

/-- The same variables have handles. -/
theorem isSome_handle? (h : SameVariables numbering numbering') (v : StateVariable) :
    (numbering.handle? v).isSome = (numbering'.handle? v).isSome := by
  have hiff : ∀ n : VariableNumbering, (n.handle? v).isSome = true ↔ v ∈ n.vars := by
    intro n
    simp [VariableNumbering.handle?]
  rw [Bool.eq_iff_iff, hiff, hiff, h.vars.mem_iff]

/-- The same symbols have blocks. -/
theorem isSome_block? (h : SameVariables numbering numbering') (symbol : String) :
    (numbering.block? symbol).isSome = (numbering'.block? symbol).isSome := by
  have hiff : ∀ n : VariableNumbering,
      (n.block? symbol).isSome = true ↔ symbol ∈ n.blocks.map (·.symbol) := by
    intro n
    simp [VariableNumbering.block?]
  rw [Bool.eq_iff_iff, hiff, hiff, h.blocks.mem_iff]

end SameVariables

/-! ### From one handle to another -/

/-- The handle that the variable of a handle has in another numbering. -/
def rehandle (numbering numbering' : VariableNumbering) (handle : Nat) : Nat :=
  ((numbering.variableAt? handle).bind numbering'.handle?).getD handle

/-- The handle of a variable is taken to its handle in the other numbering. -/
theorem SameVariables.handle? (h : SameVariables numbering numbering') (v : StateVariable) :
    numbering'.handle? v = (numbering.handle? v).map (rehandle numbering numbering') := by
  have hsome := h.isSome_handle? v
  cases hv : numbering.handle? v with
  | none =>
    rw [hv, Option.isSome_none] at hsome
    simpa using hsome.symm
  | some handle =>
    rw [hv, Option.isSome_some] at hsome
    obtain ⟨handle', hv'⟩ := Option.isSome_iff_exists.1 hsome.symm
    rw [hv', Option.map_some, rehandle, handle?_eq_some.1 hv, Option.bind_some, hv',
      Option.getD_some]

/-- Every handle belongs to a variable. -/
theorem exists_variableAt? {handle : Nat} (h : handle < numbering.size) :
    ∃ v, numbering.variableAt? handle = some v ∧ numbering.handle? v = some handle := by
  have hget : numbering.variableAt? handle = some numbering.vars[handle] :=
    List.getElem?_eq_getElem h
  exact ⟨_, hget, handle?_eq_some.2 hget⟩

/-- The handle of a variable lies in the range of handles. -/
theorem lt_size_of_handle? {v : StateVariable} {handle : Nat}
    (h : numbering.handle? v = some handle) : handle < numbering.size :=
  (List.getElem?_eq_some_iff.1 (handle?_eq_some.1 h)).1

/-- A handle is taken to that of the same variable. -/
theorem SameVariables.variableAt? (h : SameVariables numbering numbering') {handle : Nat}
    (hlt : handle < numbering.size) :
    numbering'.variableAt? (rehandle numbering numbering' handle)
      = numbering.variableAt? handle := by
  obtain ⟨v, hget, hv⟩ := exists_variableAt? hlt
  have hv' := h.handle? v
  rw [hv, Option.map_some] at hv'
  rw [hget, handle?_eq_some.1 hv']

/-- Handles are taken to handles one to one. -/
theorem SameVariables.bijOn_rehandle (h : SameVariables numbering numbering') :
    Set.BijOn (rehandle numbering numbering') (Set.Iio numbering.size)
      (Set.Iio numbering'.size) := by
  refine ⟨?_, ?_, ?_⟩
  · -- Handles are taken into the other range.
    intro handle hlt
    obtain ⟨v, -, hv⟩ := exists_variableAt? hlt
    have hv' := h.handle? v
    rw [hv, Option.map_some] at hv'
    exact lt_size_of_handle? hv'
  · -- Different handles belong to different variables.
    intro handle hlt other hlt' heq
    obtain ⟨v, hget, hv⟩ := exists_variableAt? hlt
    have hother := h.variableAt? hlt'
    rw [← heq, h.variableAt? hlt, hget] at hother
    have hv' := handle?_eq_some.2 hother.symm
    rw [hv] at hv'
    exact Option.some.inj hv'
  · -- The variable of a handle of the other numbering has a handle here too.
    intro handle' hlt'
    obtain ⟨v, -, hv'⟩ := exists_variableAt? hlt'
    rw [h.handle?, Option.map_eq_some_iff] at hv'
    obtain ⟨handle, hv, heq⟩ := hv'
    exact ⟨handle, lt_size_of_handle? hv, heq⟩

end VariableNumbering

end Grounder
