import Grounder.Classification
import Grounder.Proofs.Support.Except
import Mathlib.Data.List.Perm.Basic

/-!
# `Grounder.Proofs.Classification`: what the effects make fluent

Classifying asks two things of the actions: which symbols their effects target, and whether all of
these are declared. So it succeeds exactly when no effect targets an undeclared symbol
(`ofActions_eq_ok`), and the class of a symbol tells whether it is a target (`isFluent_iff`).
`Partitions` collects what a classification says of the declared symbols.

The order of the actions, and that of the effects in each of them, decides nothing but which
undeclared target is reported. `Reordered` relates the lists of actions that differ in these orders,
and `ofActions_of_reordered` shows that they have the same classification.
-/

set_option autoImplicit false

namespace Grounder

open Proofs.Support

/-- A table contains the names that it lists. -/
theorem SymbolTable.contains_iff {table : SymbolTable} {name : String} :
    table.contains name = true ↔ name ∈ table.names := by
  rw [contains, get?, List.find?_isSome, names, List.mem_map]
  simp

/-- An effect of one of the actions is on the symbol. -/
def IsTarget (actions : List Action) (name : String) : Prop :=
  ∃ a ∈ actions, ∃ e ∈ a.effects, e.symbol = name

/-- The error reports an effect of one of the actions on a symbol that is not declared. -/
def ReportsTarget (actions : List Action) (table : SymbolTable) (error : GroundingError) : Prop :=
  ∃ a ∈ actions, ∃ e ∈ a.effects, e.symbol ∉ table.names ∧
    error = .unknownSymbol e.symbol ("effect of action '" ++ a.name ++ "'")

namespace Classification

variable {actions actions' : List Action} {table : SymbolTable} {c : Classification}
  {name : String}

/-! ### Targets -/

/-- The targets come from the effects. -/
theorem mem_targets {pair : String × String} :
    pair ∈ targets actions ↔ ∃ a ∈ actions, ∃ e ∈ a.effects, (a.name, e.symbol) = pair := by
  simp only [targets, List.mem_flatMap, List.mem_map]

/-- No target is unknown exactly when all of them are declared. -/
theorem unknownTarget?_eq_none :
    unknownTarget? actions table = none ↔
      ∀ a ∈ actions, ∀ e ∈ a.effects, e.symbol ∈ table.names := by
  rw [unknownTarget?, List.findSome?_eq_none_iff]
  constructor
  · intro h a ha e he
    have hpair := h _ (mem_targets.2 ⟨a, ha, e, he, rfl⟩)
    simpa [SymbolTable.contains_iff] using hpair
  · intro h pair hpair
    obtain ⟨a, ha, e, he, rfl⟩ := mem_targets.1 hpair
    simpa [SymbolTable.contains_iff] using h a ha e he

/-- An unknown target is reported with the action that has the effect. -/
theorem reportsTarget_of_unknownTarget? {error : GroundingError}
    (h : unknownTarget? actions table = some error) : ReportsTarget actions table error := by
  obtain ⟨pair, hpair, hreport⟩ := List.exists_of_findSome?_eq_some h
  obtain ⟨a, ha, e, he, rfl⟩ := mem_targets.1 hpair
  dsimp only at hreport
  split at hreport
  · cases hreport
  · rename_i hnew
    rw [SymbolTable.contains_iff] at hnew
    exact ⟨a, ha, e, he, hnew, (Option.some.inj hreport).symm⟩

/-- A symbol gets the class of a fluent if it is a target, but equality never does. -/
theorem classOf_eq_fluent :
    classOf ((targets actions).map Prod.snd) name = .fluent ↔
      name ≠ equality ∧ IsTarget actions name := by
  have htarget : name ∈ (targets actions).map Prod.snd ↔ IsTarget actions name := by
    simp only [List.mem_map, mem_targets, IsTarget]
    constructor
    · rintro ⟨_, ⟨a, ha, e, he, rfl⟩, rfl⟩
      exact ⟨a, ha, e, he, rfl⟩
    · rintro ⟨a, ha, e, he, rfl⟩
      exact ⟨_, ⟨a, ha, e, he, rfl⟩, rfl⟩
  rw [classOf, ← htarget]
  simp

/-! ### Classes -/

/-- There is a classification exactly when all targets are declared, and it has one tag for every
declared symbol. -/
theorem ofActions_eq_ok :
    ofActions actions table = .ok c ↔
      (∀ a ∈ actions, ∀ e ∈ a.effects, e.symbol ∈ table.names) ∧
        c = ⟨table.names.map fun name => (name, classOf ((targets actions).map Prod.snd) name)⟩ := by
  rw [← unknownTarget?_eq_none, ofActions]
  split
  · rename_i hunknown
    simp [hunknown]
  · rename_i hknown
    simp [hknown, eq_comm]

/-- Without a classification, some undeclared target is reported. -/
theorem reportsTarget_of_ofActions {error : GroundingError}
    (h : ofActions actions table = .error error) : ReportsTarget actions table error := by
  rw [ofActions] at h
  split at h
  · rename_i hunknown
    cases h
    exact reportsTarget_of_unknownTarget? hunknown
  · cases h

/-- The tags are those of the declared symbols, in order. -/
theorem map_fst_tags (h : ofActions actions table = .ok c) : c.tags.map Prod.fst = table.names := by
  obtain ⟨-, rfl⟩ := ofActions_eq_ok.1 h
  simp [Function.comp_def]

/-- A tag says whether the symbol is a target. -/
theorem mem_tags_iff (h : ofActions actions table = .ok c) {k : SymbolClass} :
    (name, k) ∈ c.tags ↔
      name ∈ table.names ∧ k = classOf ((targets actions).map Prod.snd) name := by
  obtain ⟨-, rfl⟩ := ofActions_eq_ok.1 h
  simp only [List.mem_map, Prod.mk.injEq]
  constructor
  · rintro ⟨other, hother, rfl, rfl⟩
    exact ⟨hother, rfl⟩
  · rintro ⟨hname, rfl⟩
    exact ⟨name, hname, rfl, rfl⟩

/-- The declared symbols, and no others, have a class. -/
theorem tag?_eq_some_iff (h : ofActions actions table = .ok c) {k : SymbolClass} :
    c.tag? name = some k ↔ (name, k) ∈ c.tags := by
  obtain ⟨-, rfl⟩ := ofActions_eq_ok.1 h
  show List.lookup name _ = some k ↔ _ ∈ List.map _ _
  -- A symbol has the same class wherever it stands.
  induction table.names with
  | nil => simp
  | cons first rest ih =>
    rw [List.map_cons, List.lookup_cons, List.mem_cons, ← ih]
    by_cases heq : name = first
    · subst heq
      simp only [beq_self_eq_true, Option.some.injEq, Prod.mk.injEq, true_and]
      constructor
      · intro hk
        exact Or.inl hk.symm
      · rintro (hk | hk)
        · exact hk.symm
        · obtain ⟨_, -, heq⟩ := List.mem_map.1 (ih.1 hk)
          obtain ⟨rfl, rfl⟩ := Prod.ext_iff.1 heq
          rfl
    · rw [beq_false_of_ne heq]
      simp [heq]

/-- Every declared symbol has a class. -/
theorem exists_tag? (h : ofActions actions table = .ok c) {s : Symbol} (hs : s ∈ table.symbols) :
    ∃ k, c.tag? s.name = some k := by
  simp only [tag?_eq_some_iff h, mem_tags_iff h]
  exact ⟨_, List.mem_map_of_mem hs, rfl⟩

/-- The fluent symbols are the targets, but for equality. -/
theorem isFluent_iff (h : ofActions actions table = .ok c) :
    c.isFluent name = true ↔ name ≠ equality ∧ IsTarget actions name := by
  rw [isFluent, decide_eq_true_eq, tag?_eq_some_iff h, mem_tags_iff h, eq_comm, classOf_eq_fluent]
  constructor
  · rintro ⟨-, htarget⟩
    exact htarget
  · -- A target is declared, since there is a classification.
    rintro ⟨hne, a, ha, e, he, rfl⟩
    exact ⟨(ofActions_eq_ok.1 h).1 a ha e he, hne, a, ha, e, he, rfl⟩

/-- The static symbols are those that are listed as such. -/
theorem mem_statics_iff (h : ofActions actions table = .ok c) :
    name ∈ c.statics ↔ c.isStatic name = true := by
  rw [statics, ofClass, isStatic, decide_eq_true_eq, tag?_eq_some_iff h, List.mem_map]
  constructor
  · rintro ⟨⟨name, k⟩, htag, rfl⟩
    obtain ⟨hmem, hk⟩ := List.mem_filter.1 htag
    rw [decide_eq_true_eq] at hk
    exact hk ▸ hmem
  · intro hmem
    exact ⟨_, List.mem_filter.2 ⟨hmem, decide_eq_true rfl⟩, rfl⟩

/-- No static symbol is listed twice. -/
theorem nodup_statics (h : ofActions actions table = .ok c) (hnodup : table.names.Nodup) :
    c.statics.Nodup := by
  rw [← map_fst_tags h] at hnodup
  exact hnodup.sublist (List.filter_sublist.map _)

/-- A static symbol is declared. -/
theorem exists_symbol_of_isStatic (h : ofActions actions table = .ok c)
    (hstatic : c.isStatic name = true) : ∃ s ∈ table.symbols, s.name = name := by
  rw [isStatic, decide_eq_true_eq, tag?_eq_some_iff h, mem_tags_iff h] at hstatic
  exact List.mem_map.1 hstatic.1

/-- A static symbol is not fluent. -/
theorem isFluent_of_isStatic (h : c.isStatic name = true) : c.isFluent name = false := by
  rw [isStatic, decide_eq_true_eq] at h
  rw [isFluent, h]
  rfl

/-- The symbols of one class are listed in the order of the declarations. -/
theorem ofClass_eq_filter (h : ofActions actions table = .ok c) (k : SymbolClass) :
    c.ofClass k = table.names.filter fun name => c.tag? name = some k := by
  rw [ofClass, ← map_fst_tags h, List.filter_map]
  refine congrArg (List.map Prod.fst) (List.filter_congr ?_)
  rintro ⟨name, k'⟩ htag
  -- The class that a tag pairs with a symbol is the one that looking it up gives.
  simp [(tag?_eq_some_iff h).2 htag]

/-- What a classification says of the declared symbols. -/
structure Partitions (actions : List Action) (table : SymbolTable) (c : Classification) : Prop where
  /-- There is one tag for every declaration, in order. -/
  names : c.tags.map Prod.fst = table.names
  /-- Every declared symbol has exactly one class, and looking it up gives this class. -/
  tag : ∀ name ∈ table.names, ∃ k, c.tag? name = some k ∧ ∀ k', (name, k') ∈ c.tags ↔ k' = k
  /-- The fluent symbols are the targets of effects, without equality. -/
  fluent : ∀ name, c.isFluent name = true ↔ name ≠ equality ∧ IsTarget actions name
  /-- The fluent symbols are listed in the order of the declarations. -/
  fluents : c.fluents = table.names.filter fun name => c.isFluent name
  /-- The static symbols are all others, in the same order. -/
  statics : c.statics = table.names.filter fun name => !c.isFluent name

/-- Every classification splits the declared symbols into targets and others. -/
theorem partitions_of_ofActions (h : ofActions actions table = .ok c) :
    c.Partitions actions table := by
  refine ⟨map_fst_tags h, ?_, fun _ => isFluent_iff h, ofClass_eq_filter h .fluent, ?_⟩
  · intro name hname
    refine ⟨_, (tag?_eq_some_iff h).2 ((mem_tags_iff h).2 ⟨hname, rfl⟩), fun k' => ?_⟩
    simp [mem_tags_iff h, hname]
  · -- There are two classes, so the static symbols are those that are not fluent.
    rw [statics, ofClass_eq_filter h]
    refine List.filter_congr fun name hname => ?_
    obtain ⟨s, hs, rfl⟩ := List.mem_map.1 hname
    obtain ⟨k, hk⟩ := exists_tag? h hs
    cases k with
    | static => simp [isFluent, hk]
    | fluent => simp [isFluent, hk]

end Classification

/-! ### Reordering -/

/-- Two actions that differ in the order of their effects at most. -/
structure Action.SameButOrder (a a' : Action) : Prop where
  name : a'.name = a.name
  params : a'.params = a.params
  precondition : a'.precondition = a.precondition
  effects : a.effects.Perm a'.effects

/-- The second list has the actions of the first one in some order, each with its effects in some
order. -/
def Reordered (actions actions' : List Action) : Prop :=
  ∃ permuted, actions.Perm permuted ∧ List.Forall₂ Action.SameButOrder permuted actions'

namespace Classification

variable {actions actions' : List Action} {table : SymbolTable}

/-- Actions in another order have the same targets. -/
theorem targets_perm (h : Reordered actions actions') :
    (targets actions).Perm (targets actions') := by
  obtain ⟨permuted, hperm, hsame⟩ := h
  rw [targets, targets]
  -- First the actions change places, then the effects in each of them do.
  refine (hperm.flatMap_right _).trans ?_
  clear hperm
  induction hsame with
  | nil => exact .refl _
  | cons hfirst _ ih =>
    rw [List.flatMap_cons, List.flatMap_cons, hfirst.name]
    exact (hfirst.effects.map _).append ih

/-- Actions with the same targets have the same classification. -/
theorem ofActions_of_perm {c : Classification} (h : (targets actions).Perm (targets actions'))
    (hc : ofActions actions table = .ok c) : ofActions actions' table = .ok c := by
  have htargets : ∀ name, name ∈ (targets actions').map Prod.snd ↔
      name ∈ (targets actions).map Prod.snd := fun name => (h.map Prod.snd).symm.mem_iff
  obtain ⟨hdeclared, rfl⟩ := ofActions_eq_ok.1 hc
  refine ofActions_eq_ok.2 ⟨?_, ?_⟩
  · intro a' ha' e' he'
    obtain ⟨a, ha, e, he, heq⟩ := mem_targets.1 (h.mem_iff.2 (mem_targets.2 ⟨a', ha', e', he', rfl⟩))
    have hsymbol : e.symbol = e'.symbol := congrArg Prod.snd heq
    exact hsymbol ▸ hdeclared a ha e he
  · simp only [classOf, List.contains_iff_mem, htargets]

/-- The order of actions and effects does not matter to the classification. -/
theorem ofActions_of_reordered {c : Classification} (h : Reordered actions actions') :
    ofActions actions table = .ok c ↔ ofActions actions' table = .ok c :=
  -- `Reordered` is not stated symmetrically, but having the same targets is.
  ⟨ofActions_of_perm (targets_perm h), ofActions_of_perm (targets_perm h).symm⟩

end Classification

end Grounder
