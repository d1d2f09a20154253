import Grounder.Proofs.Support.Except
import Grounder.SymbolTable
import Mathlib.Data.List.Nodup

/-!
# `Grounder.Proofs.SymbolTable`: what a table of symbols guarantees

A table that a task gets lists the declarations of the task, and the equality of objects after
them unless it is declared. `Declares` collects what the later stages rely on: names are unique, a
symbol's id is its position, and every type of a symbol is numeric or has a listing.
-/

set_option autoImplicit false

namespace Grounder

namespace SymbolTable

open Proofs.Support

/-- The guarantees of a table that was made from declarations. -/
structure Declares (table : SymbolTable) (declared : List Signature) : Prop where
  /-- The symbols are the declared ones, in order. -/
  signatures : table.symbols.map (·.toSignature) = declared
  /-- The id of a symbol is its position. -/
  ids : table.symbols.map (·.id) = List.range declared.length
  /-- No two symbols have the same name. -/
  nodup : table.names.Nodup
  /-- Every type of a symbol is numeric or has a listing. -/
  knowsType : ∀ s ∈ table.symbols, ∀ type ∈ s.types, table.knowsType type = true

/-- A symbol is declared if its name is new. -/
theorem declare_eq_ok {symbols symbols' : List Symbol} {s : Signature} :
    declare symbols s = .ok symbols' ↔
      s.name ∉ symbols.map (·.name) ∧ symbols' = symbols ++ [{ s with id := symbols.length }] := by
  rw [declare]
  split
  · rename_i hany
    obtain ⟨other, hother, hname⟩ := List.any_eq_true.1 hany
    have hmem : s.name ∈ symbols.map (·.name) :=
      List.mem_map.2 ⟨other, hother, of_decide_eq_true hname⟩
    constructor
    · intro h
      cases h
    · rintro ⟨h, -⟩
      exact absurd hmem h
  · rename_i hany
    have hnew : s.name ∉ symbols.map (·.name) := by
      intro hmem
      obtain ⟨other, hother, hname⟩ := List.mem_map.1 hmem
      exact hany (List.any_eq_true.2 ⟨other, hother, decide_eq_true hname⟩)
    constructor
    · intro h
      exact ⟨hnew, (Except.ok.inj h).symm⟩
    · rintro ⟨-, rfl⟩
      rfl

/-- Declarations that succeed leave the symbols in order, with unique names. -/
theorem foldlM_declare {declared : List Signature} {symbols : List Symbol}
    (h : declared.foldlM declare [] = .ok symbols) :
    symbols.map (·.toSignature) = declared ∧ symbols.map (·.id) = List.range declared.length ∧
      (symbols.map (·.name)).Nodup := by
  refine foldlM_invariant (P := fun done symbols => symbols.map (·.toSignature) = done ∧
    symbols.map (·.id) = List.range done.length ∧ (symbols.map (·.name)).Nodup)
    ⟨rfl, rfl, .nil⟩ ?_ h
  -- One more declaration appends its symbol, whose id is the number of those before it.
  rintro done s symbols symbols' - ⟨hsignatures, hids, hnodup⟩ hstep
  obtain ⟨hnew, rfl⟩ := declare_eq_ok.1 hstep
  have hlength : symbols.length = done.length := by
    rw [← hsignatures, List.length_map]
  refine ⟨?_, ?_, ?_⟩
  · rw [List.map_append, hsignatures]
    rfl
  · rw [List.map_append, hids, List.length_append, List.length_singleton, List.range_succ,
      hlength]
    rfl
  · rw [List.map_append, List.nodup_append]
    refine ⟨hnodup, by simp, ?_⟩
    rintro name hname other hother rfl
    rw [List.map_singleton, List.mem_singleton] at hother
    exact hnew (hother ▸ hname)

/-- No type of a table is unknown exactly when the table knows all types of its symbols. -/
theorem unknownType?_eq_none {table : SymbolTable} :
    table.unknownType? = none ↔
      ∀ s ∈ table.symbols, ∀ type ∈ s.types, table.knowsType type = true := by
  rw [unknownType?, List.findSome?_eq_none_iff]
  refine forall₂_congr fun s _ => ?_
  rw [Option.map_eq_none_iff, List.find?_eq_none]
  simp

/-- The declarations behind the table of a task. -/
def allDeclarations (t : Task) : List Signature :=
  declarations t ++ impliedDeclarations (declarations t)

/-- The table of a task has the listings of the task and the guarantees of its declarations. -/
theorem declares_of_ofTask {t : Task} {table : SymbolTable} (h : ofTask t = .ok table) :
    table.Declares (allDeclarations t) ∧ table.typeDomains = t.typeDomains ∧
      table.objects = t.objects := by
  rw [ofTask] at h
  obtain ⟨symbols, hsymbols, h⟩ := bind_eq_ok.1 h
  obtain ⟨hsignatures, hids, hnodup⟩ := foldlM_declare hsymbols
  dsimp only at h
  split at h
  · cases h
  · rename_i hknown
    cases h
    exact ⟨⟨hsignatures, hids, hnodup, unknownType?_eq_none.1 hknown⟩, rfl, rfl⟩

/-- In a table with unique names, the symbol of a name is the one that bears it. -/
theorem get?_eq_some {table : SymbolTable} (hnodup : table.names.Nodup) {name : String}
    {s : Symbol} : table.get? name = some s ↔ s ∈ table.symbols ∧ s.name = name := by
  constructor
  · intro h
    exact ⟨List.mem_of_find?_eq_some h, by simpa using List.find?_some h⟩
  · rintro ⟨hmem, rfl⟩
    cases hget : table.get? s.name with
    | none =>
      rw [get?, List.find?_eq_none] at hget
      exact absurd (decide_eq_true rfl) (hget s hmem)
    | some s' =>
      have hname : s'.name = s.name := by simpa using List.find?_some hget
      rw [List.inj_on_of_nodup_map hnodup (List.mem_of_find?_eq_some hget) hmem hname]

end SymbolTable

end Grounder
