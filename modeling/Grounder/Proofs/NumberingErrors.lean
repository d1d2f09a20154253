import Grounder.Proofs.Renumbering
import Grounder.Proofs.StrideRange

/-!
# `Grounder.Proofs.NumberingErrors`: the symbol that stops a numbering

The numbering of a task stops at the first fluent symbol that is faulty (`IsFaulty`): a parameter
type has no listing, or the symbol has variables and a listing repeats an object, or a stride is no
word. A listing with a repetition does no harm beside an empty one. No other symbol can be in the
way, since variables of different symbols are different.

`ofSymbols_fails_iff` says which symbol comes first in an order, which the stability of sorting
decides, and which error is about it (`Reports`). A repeated variable is found in the order in which
the odometer counts. `wide_symbol_comes_first` is a task whose second fluent symbol has a type
without a listing, but whose first one stops the run.
-/

set_option autoImplicit false

namespace Grounder

/-- Which of two declared symbols comes first in an order. -/
def SymbolOrder.Precedes : SymbolOrder → Symbol → Symbol → Prop
  | .declaration, s, other => s.id < other.id
  | .arity, s, other => s.arity < other.arity ∨ s.arity = other.arity ∧ s.id < other.id

/-- Two symbols do not come before each other. -/
theorem SymbolOrder.Precedes.asymm {order : SymbolOrder} {s other : Symbol}
    (h : order.Precedes s other) : ¬ order.Precedes other s := by
  cases order with
  | declaration => exact Nat.lt_asymm h
  | arity =>
    simp only [Precedes] at h ⊢
    omega

namespace VariableNumbering

open Proofs.Support Odometer

/-- What keeps a symbol from getting handles. -/
inductive IsFaulty (table : SymbolTable) (s : Symbol) : Prop where
  /-- Some parameter type has no listing. -/
  | unlisted {type : String} (hmem : type ∈ s.params) (hnone : table.domain? type = none)
  /-- All parameter types have listings with objects in them, and one repeats an object. -/
  | repeated {domains : List (List String)} {listing : List String}
      (hdomains : HasDomains table s domains) (hfilled : [] ∉ domains)
      (hmem : listing ∈ domains) (hrepeated : ¬ listing.Nodup)
  /-- All parameter types have listings, but a stride is no word. -/
  | wide {domains : List (List String)} (hdomains : HasDomains table s domains)
      (hwide : TooWide domains)

/-- The error that is about a symbol. -/
inductive Reports (table : SymbolTable) (s : Symbol) : GroundingError → Prop where
  /-- It names the first parameter type that has no listing. -/
  | unlisted {before after : List String} {type : String}
      (hparams : s.params = before ++ type :: after)
      (hbefore : ∀ earlier ∈ before, (table.domain? earlier).isSome = true)
      (hnone : table.domain? type = none) : Reports table s (.unboundedDomain type s.name)
  /-- All parameter types have listings, and it names the first variable that comes again. -/
  | repeated {domains : List (List String)} {tuple : List String}
      (hdomains : HasDomains table s domains) (hfirst : FirstRepeat domains tuple) :
      Reports table s (.duplicateRegistration ⟨s.name, tuple⟩)
  /-- All parameter types have listings, and no variable comes again. -/
  | wide {domains : List (List String)} (hdomains : HasDomains table s domains)
      (hdistinct : (tuples domains).Nodup) (hwide : TooWide domains) :
      Reports table s .strideOverflow

variable {table : SymbolTable} {numbering numbering' : VariableNumbering} {s : Symbol}
  {e : GroundingError}

/-! ### One symbol -/

/-- The domains of a symbol are missing because of its first parameter type without a listing. -/
theorem argumentDomains_eq_error (h : argumentDomains table s = .error e) :
    IsFaulty table s ∧ Reports table s e := by
  obtain ⟨before, type, after, hparams, hbefore, h⟩ := cut_of_mapM_eq_error h
  split at h
  · cases h
  · rename_i hnone
    cases h
    refine ⟨.unlisted (hparams ▸ List.mem_append_right before List.mem_cons_self) hnone,
      .unlisted hparams (fun earlier hearlier => ?_) hnone⟩
    obtain ⟨listing, hlisting⟩ := hbefore earlier hearlier
    split at hlisting
    · rename_i hdomain
      rw [hdomain]
      rfl
    · cases hlisting

/-- If no variable of a symbol has a handle yet, the first variable that comes again is the one that
cannot be registered. -/
theorem registerAll_tuples_eq_error {domains : List (List String)}
    (hnew : ∀ v ∈ numbering.vars, v.symbol ≠ s.name)
    (h : numbering.registerAll ((tuples domains).map fun tuple => ⟨s.name, tuple⟩) = .error e) :
    ∃ tuple, FirstRepeat domains tuple ∧ e = .duplicateRegistration ⟨s.name, tuple⟩ := by
  obtain ⟨before, v, after, hcut, hnodup, hmem, rfl⟩ := registerAll_eq_error h
  obtain ⟨firsts, rest, htuples, rfl, hrest⟩ := List.map_eq_append_iff.1 hcut
  obtain ⟨tuple, others, rfl, rfl, -⟩ := List.map_eq_cons_iff.1 hrest
  refine ⟨tuple, firstRepeat_of_tuples htuples (List.nodup_append.1 hnodup).2.1.of_map ?_, rfl⟩
  rcases List.mem_append.1 hmem with hold | hfirst
  · exact absurd rfl (hnew _ hold)
  · obtain ⟨tuple', htuple', heq⟩ := List.mem_map.1 hfirst
    cases heq
    exact htuple'

/-- A symbol without handles cannot be added only if it is faulty, and the error is about it. -/
theorem addSymbol_eq_error (hnew : ∀ v ∈ numbering.vars, v.symbol ≠ s.name)
    (h : addSymbol table numbering s = .error e) : IsFaulty table s ∧ Reports table s e := by
  rw [addSymbol] at h
  rcases bind_eq_error.1 h with h | ⟨domains, hdomains, h⟩
  · exact argumentDomains_eq_error h
  · rw [argumentDomains_eq_ok] at hdomains
    rcases bind_eq_error.1 h with h | ⟨filled, hfilled, h⟩
    · obtain ⟨tuple, hfirst, rfl⟩ := registerAll_tuples_eq_error hnew h
      obtain ⟨hfilled, listing, hmem, hrepeated⟩ := hfirst.exists_not_nodup
      exact ⟨.repeated hdomains hfilled hmem hrepeated, .repeated hdomains hfirst⟩
    · rcases bind_eq_error.1 h with h | ⟨found, -, h⟩
      · obtain ⟨hwide, rfl⟩ := strides_eq_error.1 h
        -- All variables were registered before, so no tuple comes twice.
        have hdistinct := nodup_tuples_of_registerAll hfilled
        exact ⟨.wide hdomains hwide, .wide hdomains hdistinct hwide⟩
      · cases h

/-- A faulty symbol cannot be added. -/
theorem not_isFaulty_of_addSymbol (h : addSymbol table numbering s = .ok numbering') :
    ¬ IsFaulty table s := by
  obtain ⟨vs, ⟨domains, hdomains, hfound, rfl⟩, hvars⟩ := enumerates_of_addSymbol h
  rintro (⟨hmem, hnone⟩ | ⟨hdomains', hfilled, hmem, hrepeated⟩ | ⟨hdomains', hwide⟩)
  · obtain ⟨listing, -, hlisting⟩ := exists_counterpart hdomains.flip hmem
    rw [hnone] at hlisting
    cases hlisting
  · cases hdomains.unique hdomains'
    have hnodup := numbering'.nodup
    rw [hvars] at hnodup
    have htuples := (List.nodup_append.1 hnodup).2.1.of_map
    exact hrepeated (nodup_of_nodup_tuples htuples hfilled hmem)
  · cases hdomains.unique hdomains'
    exact exists_strides_iff.1 hfound hwide

/-- There is one error that is about a symbol. -/
theorem Reports.unique {e' : GroundingError} (h : Reports table s e) (h' : Reports table s e') :
    e = e' := by
  -- A list of domains rules out that a parameter type has no listing.
  have hlisted {type : String} {before after : List String} {domains : List (List String)}
      (hparams : s.params = before ++ type :: after) (hnone : table.domain? type = none) :
      ¬ HasDomains table s domains := by
    intro hdomains
    obtain ⟨listing, -, hlisting⟩ := exists_counterpart hdomains.flip
      (hparams ▸ List.mem_append_right before List.mem_cons_self)
    rw [hnone] at hlisting
    cases hlisting
  have hfind {type : String} {before after : List String}
      (hparams : s.params = before ++ type :: after)
      (hbefore : ∀ earlier ∈ before, (table.domain? earlier).isSome = true)
      (hnone : table.domain? type = none) :
      s.params.find? (fun type => (table.domain? type).isNone) = some type := by
    rw [List.find?_eq_some_iff_append]
    exact ⟨by simp [hnone], before, after, hparams, by simpa using hbefore⟩
  -- A tuple that comes again rules out that the tuples are distinct.
  have hdistinct {domains domains' : List (List String)} {tuple : List String}
      (hdomains : HasDomains table s domains) (hfirst : FirstRepeat domains tuple)
      (hdomains' : HasDomains table s domains') : ¬ (tuples domains').Nodup := by
    intro hnodup
    cases hdomains.unique hdomains'
    obtain ⟨hfilled, listing, hmem, hrepeated⟩ := hfirst.exists_not_nodup
    exact hrepeated (nodup_of_nodup_tuples hnodup hfilled hmem)
  cases h with
  | unlisted hparams hbefore hnone =>
    cases h' with
    | unlisted hparams' hbefore' hnone' =>
      have heq := (hfind hparams hbefore hnone).symm.trans (hfind hparams' hbefore' hnone')
      rw [Option.some.inj heq]
    | repeated hdomains => exact absurd hdomains (hlisted hparams hnone)
    | wide hdomains => exact absurd hdomains (hlisted hparams hnone)
  | repeated hdomains hfirst =>
    cases h' with
    | unlisted hparams hbefore hnone => exact absurd hdomains (hlisted hparams hnone)
    | repeated hdomains' hfirst' =>
      cases hdomains.unique hdomains'
      rw [hfirst.unique hfirst']
    | wide hdomains' hnodup => exact absurd hnodup (hdistinct hdomains hfirst hdomains')
  | wide hdomains hnodup =>
    cases h' with
    | unlisted hparams hbefore hnone => exact absurd hdomains (hlisted hparams hnone)
    | repeated hdomains' hfirst => exact absurd hnodup (hdistinct hdomains' hfirst hdomains)
    | wide => rfl

/-! ### One symbol after another -/

/-- Symbols that have been added are not faulty, and all variables are theirs. -/
theorem foldlM_addSymbol_eq_ok {symbols : List Symbol}
    (h : symbols.foldlM (addSymbol table) empty = .ok numbering) :
    (∀ s ∈ symbols, ¬ IsFaulty table s) ∧
      ∀ v ∈ numbering.vars, ∃ s ∈ symbols, v.symbol = s.name := by
  refine foldlM_invariant (P := fun done numbering => (∀ s ∈ done, ¬ IsFaulty table s) ∧
    ∀ v ∈ numbering.vars, ∃ s ∈ done, v.symbol = s.name) ⟨by simp, by simp [empty]⟩ ?_ h
  rintro done s numbering numbering' - ⟨hsound, hvars⟩ hstep
  obtain ⟨vs, ⟨domains, -, -, rfl⟩, hvars'⟩ := enumerates_of_addSymbol hstep
  constructor
  · rw [List.forall_mem_append, List.forall_mem_singleton]
    exact ⟨hsound, not_isFaulty_of_addSymbol hstep⟩
  · rw [hvars', List.forall_mem_append, List.forall_mem_map]
    refine ⟨fun v hv => ?_, fun tuple _ => ⟨s, by simp, rfl⟩⟩
    obtain ⟨s', hs', hsymbol⟩ := hvars v hv
    exact ⟨s', List.mem_append_left [s] hs', hsymbol⟩

/-- A numbering that fails does so at the first faulty symbol. -/
theorem ofSymbols_eq_error {c : Classification} {order : SymbolOrder}
    (hnodup : table.names.Nodup) (h : ofSymbols table c order = .error e) :
    ∃ before s after, orderedFluents table c order = before ++ s :: after ∧
      (∀ earlier ∈ before, ¬ IsFaulty table earlier) ∧ IsFaulty table s ∧ Reports table s e := by
  obtain ⟨before, s, after, numbering, hcut, hbefore, hfails⟩ := cut_of_foldlM_eq_error h
  obtain ⟨hsound, hvars⟩ := foldlM_addSymbol_eq_ok hbefore
  have hnames := nodup_orderedFluents hnodup c order
  rw [hcut, List.map_append, List.map_cons, List.nodup_append] at hnames
  -- The variables so far are of the symbols so far, whose names are different.
  have hnew : ∀ v ∈ numbering.vars, v.symbol ≠ s.name := by
    intro v hv
    obtain ⟨earlier, hearlier, hsymbol⟩ := hvars v hv
    rw [hsymbol]
    exact hnames.2.2 _ (List.mem_map_of_mem hearlier) _ List.mem_cons_self
  obtain ⟨hfaulty, hreports⟩ := addSymbol_eq_error hnew hfails
  exact ⟨before, s, after, hcut, hsound, hfaulty, hreports⟩

/-- The fluent symbols come in the order that was chosen. -/
theorem pairwise_orderedFluents {declared : List Signature} (h : table.Declares declared)
    (c : Classification) (order : SymbolOrder) :
    (orderedFluents table c order).Pairwise order.Precedes := by
  have hdeclared : (table.symbols.filter fun s => c.isFluent s.name).Pairwise
      fun s other => s.id < other.id := by
    refine List.Pairwise.filter _ (List.pairwise_map.1 ?_)
    rw [h.ids]
    exact List.pairwise_lt_range
  cases order with
  | declaration => exact hdeclared
  | arity => exact pairwise_mergeSort_key (fun s : Symbol => s.arity) hdeclared

/-! ### The first faulty symbol -/

/-- The faulty fluent symbol that comes before all others. -/
structure IsFirstFaulty (table : SymbolTable) (c : Classification) (order : SymbolOrder)
    (s : Symbol) : Prop where
  mem : s ∈ table.symbols
  fluent : c.isFluent s.name = true
  faulty : IsFaulty table s
  first : ∀ other ∈ table.symbols, c.isFluent other.name = true → IsFaulty table other →
    other ≠ s → order.Precedes s other

variable {c : Classification} {order : SymbolOrder}

/-- Only one symbol comes before all others. -/
theorem IsFirstFaulty.unique {s' : Symbol} (h : IsFirstFaulty table c order s)
    (h' : IsFirstFaulty table c order s') : s' = s := by
  by_contra hne
  have hbefore := h.first s' h'.mem h'.fluent h'.faulty hne
  exact hbefore.asymm (h'.first s h.mem h.fluent h.faulty (Ne.symm hne))

/-- A numbering with a faulty symbol fails. -/
theorem exists_error_of_isFaulty (hs : s ∈ table.symbols) (hfluent : c.isFluent s.name = true)
    (hfaulty : IsFaulty table s) (order : SymbolOrder) :
    ∃ e, ofSymbols table c order = .error e := by
  cases hnumbering : ofSymbols table c order with
  | error e => exact ⟨e, rfl⟩
  | ok numbering =>
    have hmem : s ∈ orderedFluents table c order := mem_orderedFluents.2 ⟨hs, hfluent⟩
    exact absurd hfaulty ((foldlM_addSymbol_eq_ok hnumbering).1 s hmem)

/-- A numbering that fails reports the first faulty symbol. -/
theorem exists_isFirstFaulty {declared : List Signature} (hdeclares : table.Declares declared)
    (h : ofSymbols table c order = .error e) :
    ∃ s, IsFirstFaulty table c order s ∧ Reports table s e := by
  obtain ⟨before, s, after, hcut, hsound, hfaulty, hreports⟩ :=
    ofSymbols_eq_error hdeclares.nodup h
  have hmem : s ∈ orderedFluents table c order :=
    hcut ▸ List.mem_append_right before List.mem_cons_self
  obtain ⟨hs, hfluent⟩ := mem_orderedFluents.1 hmem
  refine ⟨s, ⟨hs, hfluent, hfaulty, fun other hother hfluent' hfaulty' hne => ?_⟩, hreports⟩
  -- Another faulty symbol does not stand before this one, so it stands behind it.
  have hpairwise := pairwise_orderedFluents hdeclares c order
  have hmem' : other ∈ orderedFluents table c order := mem_orderedFluents.2 ⟨hother, hfluent'⟩
  rw [hcut] at hpairwise hmem'
  rcases List.mem_append.1 hmem' with hearlier | hlater
  · exact absurd hfaulty' (hsound other hearlier)
  · have hafter := (List.mem_cons.1 hlater).resolve_left hne
    exact List.rel_of_pairwise_cons (List.pairwise_append.1 hpairwise).2.1 hafter

/-- A task cannot be numbered exactly if some fluent symbol is faulty. The error is the one that is
about the first of these symbols in the order that was chosen. -/
theorem ofSymbols_fails_iff {t : Task} (htable : SymbolTable.ofTask t = .ok table)
    (c : Classification) (order : SymbolOrder) :
    ((∃ e, ofSymbols table c order = .error e) ↔
      ∃ s ∈ table.symbols, c.isFluent s.name = true ∧ IsFaulty table s) ∧
    ∀ e, ofSymbols table c order = .error e ↔
      ∃ s, IsFirstFaulty table c order s ∧ Reports table s e := by
  have hdeclares := (SymbolTable.declares_of_ofTask htable).1
  refine ⟨⟨?_, ?_⟩, fun e => ⟨exists_isFirstFaulty hdeclares, ?_⟩⟩
  · rintro ⟨e, h⟩
    obtain ⟨s, hfirst, -⟩ := exists_isFirstFaulty hdeclares h
    exact ⟨s, hfirst.mem, hfirst.fluent, hfirst.faulty⟩
  · rintro ⟨s, hs, hfluent, hfaulty⟩
    exact exists_error_of_isFaulty hs hfluent hfaulty order
  · rintro ⟨s, hfirst, hreports⟩
    -- There is an error, and it is about the same symbol.
    obtain ⟨e', h⟩ := exists_error_of_isFaulty hfirst.mem hfirst.fluent hfirst.faulty order
    obtain ⟨s', hfirst', hreports'⟩ := exists_isFirstFaulty hdeclares h
    cases hfirst.unique hfirst'
    rw [h, hreports.unique hreports']

/-- A task in which the boxes are listed with a repetition. There are no robots to hold one. -/
def shelvesTask : Task where
  domain := "shelves"
  instanceName := "one"
  typeDomains := [⟨"box", ["a", "b", "a"]⟩, ⟨"shelf", ["s", "r"]⟩, ⟨"robot", []⟩]
  objects := ["a", "b", "s", "r"]
  predicates := [⟨"holds", ["robot", "box"]⟩, ⟨"on", ["shelf", "box"]⟩]
  functions := [⟨"rank", ["int"], "shelf"⟩]
  actions := [⟨"put", [⟨"?x", "robot"⟩, ⟨"?b", "box"⟩, ⟨"?s", "shelf"⟩],
    .atom "holds" [.param "?x", .param "?b"] false,
    [⟨"holds", [.param "?x", .param "?b"], none, true, none⟩,
      ⟨"on", [.param "?s", .param "?b"], none, false, none⟩,
      ⟨"rank", [.int 1], some (.param "?s"), false, none⟩]⟩]
  init := []
  constraints := []
  goal := none

/-- In the order of declaration, the boxes on the shelves are the first to be in the way. What the
robots hold is not, since there are no robots. By arity, the ranks come before both. -/
theorem ofSymbols_fails_iff_shelves :
    ∃ table c, SymbolTable.ofTask shelvesTask = .ok table ∧
      Classification.ofActions shelvesTask.actions table = .ok c ∧
      ofSymbols table c .declaration = .error (.duplicateRegistration ⟨"on", ["s", "a"]⟩) ∧
      ofSymbols table c .arity = .error (.unboundedDomain "int" "rank") := by
  obtain ⟨table, htable⟩ : ∃ table, SymbolTable.ofTask shelvesTask = .ok table := ⟨_, rfl⟩
  obtain ⟨c, hc⟩ : ∃ c, Classification.ofActions shelvesTask.actions table = .ok c := by
    cases htable
    exact ⟨_, rfl⟩
  have herror := (ofSymbols_fails_iff htable c .arity).2 (.unboundedDomain "int" "rank")
  refine ⟨table, c, htable, hc, ?_, herror.2 ?_⟩
  · cases htable
    cases hc
    rfl
  · have hmany : ∀ other ∈ table.symbols, other ≠ ⟨⟨"rank", ["int"], some "shelf"⟩, 2⟩ →
        1 < other.arity := by
      cases htable
      decide
    have hrank : (⟨⟨"rank", ["int"], some "shelf"⟩, 2⟩ : Symbol) ∈ table.symbols := by
      cases htable
      decide
    cases htable
    cases hc
    exact ⟨_, ⟨hrank, rfl, .unlisted List.mem_cons_self rfl,
      fun other hother _ _ hne => .inl (hmany other hother hne)⟩,
      .unlisted (show _ = [] ++ "int" :: [] from rfl) (by simp) rfl⟩

/-- A task with a symbol that has no handles, but places for too many bits. The other symbol takes
numbers, which are not listed. -/
def countersTask : Task where
  domain := "counters"
  instanceName := "one"
  typeDomains := [⟨"nowhere", []⟩, ⟨"bit", ["0", "1"]⟩]
  objects := ["0", "1"]
  predicates := [⟨"reach", wideTypes⟩, ⟨"rank", ["int"]⟩]
  functions := []
  actions := [⟨"touch", [], .true, [⟨"reach", wideTypes.map fun _ => .object "0", none, false, none⟩,
    ⟨"rank", [.int 1], none, false, none⟩]⟩]
  init := []
  constraints := []
  goal := none

/-- The ranks are the only symbol with a type that is not listed, and no listing repeats an object.
But the run is broken off before it comes to them, and no type is reported. -/
theorem wide_symbol_comes_first :
    let rank : Symbol := ⟨⟨"rank", ["int"], none⟩, 1⟩
    ∃ table c, SymbolTable.ofTask countersTask = .ok table ∧
      Classification.ofActions countersTask.actions table = .ok c ∧
      rank ∈ table.symbols ∧ c.isFluent rank.name = true ∧ table.domain? "int" = none ∧
      (∀ s ∈ table.symbols, s ≠ rank → ∀ type ∈ s.params,
        ∃ listing, table.domain? type = some listing ∧ listing.Nodup) ∧
      ofSymbols table c .declaration = .error .strideOverflow := by
  intro rank
  obtain ⟨table, htable⟩ : ∃ table, SymbolTable.ofTask countersTask = .ok table := ⟨_, rfl⟩
  obtain ⟨c, hc⟩ : ∃ c, Classification.ofActions countersTask.actions table = .ok c := by
    cases htable
    exact ⟨_, rfl⟩
  have hreaches : ReachesStrides table c .declaration ⟨⟨"reach", wideTypes, none⟩, 0⟩ empty empty
      wideListings := by
    cases htable
    cases hc
    exact ⟨⟨[], _, rfl, rfl⟩, hasDomains_wideListings rfl rfl rfl, rfl⟩
  have hsymbols : table.symbols = [⟨⟨"reach", wideTypes, none⟩, 0⟩, rank,
      ⟨⟨"=", ["object", "object"], none⟩, 2⟩] := by
    cases htable
    rfl
  have hlisted : ∀ type ∈ ["object", "nowhere", "bit"],
      ∃ listing, table.domain? type = some listing ∧ listing.Nodup := by
    cases htable
    simp only [List.forall_mem_cons, List.not_mem_nil, false_implies, implies_true, and_true]
    exact ⟨⟨_, rfl, by decide⟩, ⟨_, rfl, by decide⟩, ⟨_, rfl, by decide⟩⟩
  refine ⟨table, c, htable, hc, ?_, ?_, ?_, ?_, hreaches.ofSymbols_eq_error tooWide_wideListings⟩
  · rw [hsymbols]
    simp
  · cases htable
    cases hc
    rfl
  · cases htable
    rfl
  · rw [hsymbols]
    simp only [List.forall_mem_cons, List.not_mem_nil, false_implies, implies_true, and_true]
    refine ⟨fun _ type htype => hlisted type ?_, fun hne => absurd rfl hne, fun _ => ?_⟩
    · rcases List.mem_cons.1 htype with rfl | hbit
      · decide
      · rw [(List.mem_replicate.1 hbit).2]
        decide
    · have hobject := hlisted "object" List.mem_cons_self
      exact ⟨hobject, hobject⟩

end VariableNumbering

end Grounder
