import Grounder.InitialState
import Mathlib.Data.List.Lex
import Mathlib.Data.List.Nodup
import Mathlib.Data.String.Basic

/-!
# `Grounder.Proofs.InitialState.Assignment`: adding a fact to an extension

The extension of a symbol keeps its tuples in ascending order and takes every tuple once. Insertion
relies on the order: it looks no further than the first tuple that is greater.

* `insertValue?_eq_none`: insertion fails exactly on a tuple that is there already.
* `insertValue?_perm` and `insertValue?_ascending`: otherwise it adds the tuple with its value and
  nothing else, and keeps the order.

A relation is treated as a function with the value true, so that every fact about insertion is
stated once (`insert?_eq_some`).
-/

set_option autoImplicit false

namespace Grounder

namespace Assignment

/-- Entries whose tuples ascend. No tuple occurs twice among them. -/
def AscendingEntries (entries : List (Tuple × FactValue)) : Prop :=
  entries.Pairwise fun x y => x.1 < y.1

/-- An extension whose tuples ascend. -/
def Ascending (a : Assignment) : Prop := AscendingEntries a.entries

variable {tuple : Tuple} {value : FactValue} {entries entries' : List (Tuple × FactValue)}

/-- Ascending tuples are distinct. -/
theorem nodup_tuples (h : AscendingEntries entries) : (entries.map Prod.fst).Nodup := by
  refine List.pairwise_map.2 (h.imp fun {x y} hlt heq => ?_)
  rw [heq] at hlt
  exact lt_irrefl _ hlt

/-! ### Insertion into a list -/

/-- Insertion adds the tuple with its value, and nothing else. -/
theorem insertValue?_perm (h : insertValue? tuple value entries = some entries') :
    entries'.Perm ((tuple, value) :: entries) := by
  induction entries generalizing entries' with
  | nil =>
    cases h
    exact .refl _
  | cons first rest ih =>
    rw [insertValue?] at h
    split at h
    · cases h
    · split at h
      · cases h
        exact .refl _
      · obtain ⟨rest', hrest, rfl⟩ := Option.map_eq_some_iff.1 h
        exact ((ih hrest).cons first).trans (.swap _ _ rest)

/-- Insertion keeps the tuples ascending. -/
theorem insertValue?_ascending (hasc : AscendingEntries entries)
    (h : insertValue? tuple value entries = some entries') : AscendingEntries entries' := by
  induction entries generalizing entries' with
  | nil =>
    cases h
    exact List.pairwise_singleton _ _
  | cons first rest ih =>
    obtain ⟨hfirst, hrest⟩ := List.pairwise_cons.1 hasc
    rw [insertValue?] at h
    split at h
    · cases h
    · rename_i hne
      split at h
      · -- The tuple comes first, in front of one that is greater.
        rename_i hlt
        cases h
        refine List.pairwise_cons.2 ⟨fun y hy => ?_, hasc⟩
        rcases List.mem_cons.1 hy with rfl | hy
        · exact hlt
        · exact lt_trans hlt (hfirst y hy)
      · -- The first tuple stays first, since it is smaller.
        rename_i hnlt
        obtain ⟨rest', hrest', rfl⟩ := Option.map_eq_some_iff.1 h
        refine List.pairwise_cons.2 ⟨fun y hy => ?_, ih hrest hrest'⟩
        rcases List.mem_cons.1 ((insertValue?_perm hrest').mem_iff.1 hy) with rfl | hy
        · exact (lt_trichotomy first.1 tuple).resolve_right
            fun hor => hor.elim (fun heq => hne heq.symm) hnlt
        · exact hfirst y hy

/-- Insertion fails exactly on a tuple that is there already. -/
theorem insertValue?_eq_none (hasc : AscendingEntries entries) :
    insertValue? tuple value entries = none ↔ tuple ∈ entries.map Prod.fst := by
  induction entries with
  | nil => simp [insertValue?]
  | cons first rest ih =>
    obtain ⟨hfirst, hrest⟩ := List.pairwise_cons.1 hasc
    rw [insertValue?, List.map_cons, List.mem_cons]
    by_cases heq : tuple = first.1
    · simp only [if_pos heq, true_iff]
      exact .inl heq
    · rw [if_neg heq]
      by_cases hlt : tuple < first.1
      · rw [if_pos hlt]
        -- All that follows is greater still.
        have hnot : tuple ∉ rest.map Prod.fst := by
          intro hmem
          obtain ⟨y, hy, rfl⟩ := List.mem_map.1 hmem
          exact lt_asymm hlt (hfirst y hy)
        simp [heq, hnot]
      · rw [if_neg hlt, Option.map_eq_none_iff, ih hrest]
        simp [heq]

/-- Insertion into a relation is insertion of the tuple with the value true. -/
theorem insertValue?_map_true (tuple : Tuple) (tuples : List Tuple) :
    insertValue? tuple (.bool true) (tuples.map fun t => (t, .bool true))
      = (insertTuple? tuple tuples).map (·.map fun t => (t, .bool true)) := by
  induction tuples with
  | nil => rfl
  | cons t rest ih =>
    rw [List.map_cons, insertValue?, insertTuple?]
    split
    · rfl
    · split
      · rfl
      · rw [ih, Option.map_map, Option.map_map]
        rfl

/-! ### Insertion into an extension -/

/-- Whether a fact with that value, or without one, belongs to the extension. -/
def Takes (a : Assignment) (value : Option FactValue) : Prop := value.isNone = a.isRelation

/-- A successful insertion into an extension is one into its entries. -/
theorem insert?_eq_some {a a' : Assignment} {value : Option FactValue} (htakes : a.Takes value)
    (h : a.insert? tuple value = some a') :
    insertValue? tuple (value.getD (.bool true)) a.entries = some a'.entries ∧
      a'.isRelation = a.isRelation := by
  cases a with
  | relation tuples =>
    cases value with
    | some v => cases htakes
    | none =>
      obtain ⟨tuples', htuples, rfl⟩ := Option.map_eq_some_iff.1 h
      refine ⟨?_, rfl⟩
      rw [entries, Option.getD_none, insertValue?_map_true, htuples]
      rfl
  | function values =>
    cases value with
    | none => cases htakes
    | some v =>
      obtain ⟨values', hvalues, rfl⟩ := Option.map_eq_some_iff.1 h
      exact ⟨hvalues, rfl⟩

/-- Insertion into an extension fails when it fails on the entries. -/
theorem insert?_eq_none {a : Assignment} {value : Option FactValue} (htakes : a.Takes value) :
    a.insert? tuple value = none ↔
      insertValue? tuple (value.getD (.bool true)) a.entries = none := by
  cases a with
  | relation tuples =>
    cases value with
    | some v => cases htakes
    | none =>
      rw [insert?, entries, Option.getD_none, insertValue?_map_true, Option.map_eq_none_iff,
        Option.map_eq_none_iff]
  | function values =>
    cases value with
    | none => cases htakes
    | some v => rw [insert?, Option.map_eq_none_iff]; rfl

/-- Two extensions of one kind with the same entries are the same. -/
theorem eq_of_entries_eq {a a' : Assignment} (hkind : a.isRelation = a'.isRelation)
    (h : a.entries = a'.entries) : a = a' := by
  cases a with
  | relation tuples =>
    cases a' with
    | function values => cases hkind
    | relation tuples' =>
      have htuples := congrArg (·.map Prod.fst) h
      simp only [entries, List.map_map, Function.comp_def, List.map_id'] at htuples
      rw [htuples]
  | function values =>
    cases a' with
    | relation tuples => cases hkind
    | function values' => rw [show values = values' from h]

/-- Ascending extensions of one kind are the same if they have the same members. -/
theorem eq_of_ascending {a a' : Assignment} (hkind : a.isRelation = a'.isRelation)
    (ha : a.Ascending) (ha' : a'.Ascending) (h : ∀ x, x ∈ a.entries ↔ x ∈ a'.entries) : a = a' := by
  have hperm : a.entries.Perm a'.entries :=
    (List.perm_ext_iff_of_nodup (List.Nodup.of_map Prod.fst (nodup_tuples ha))
      (List.Nodup.of_map Prod.fst (nodup_tuples ha'))).2 h
  refine eq_of_entries_eq hkind (hperm.eq_of_pairwise (fun x y _ _ hxy hyx => ?_) ha ha')
  exact absurd hyx (lt_asymm hxy)

end Assignment

end Grounder
