import Grounder.Proofs.Odometer
import Grounder.Proofs.Support.Lists
import Grounder.Proofs.SymbolTable
import Grounder.VariableNumbering
import Mathlib.Algebra.Order.BigOperators.Group.List
import Mathlib.Algebra.Order.Group.Nat

/-!
# `Grounder.Proofs.VariableNumbering`: handles are numerals

The numbering of a task goes through the fluent symbols and, for each of them, through all tuples
over its parameter types. What a finished block says stays true of every later numbering, since
variables are only appended; this is the invariant of the loop (`Describes`). The strides of a block
come from a loop of their own, from the last place to the first. What it has found are weights of
places (`toNat_foldlM_pushStride`), and it stops where a weight is no word (`strides_eq_error`). Both
lead to the main theorem:

* `ofSymbols_enumerates`: the blocks tile the handles in the order of the fluent symbols, and the
  handle of a variable is the base of its symbol's block plus the numeral of its positions, which
  the strides of the block compute. No other variable has a handle.
-/

set_option autoImplicit false

namespace Grounder

namespace VariableNumbering

open Proofs.Support Odometer

/-! ### Registering -/

/-- The handle of a variable is the position at which it stands. -/
theorem handle?_eq_some {numbering : VariableNumbering} {v : StateVariable} {handle : Nat} :
    numbering.handle? v = some handle ↔ numbering.variableAt? handle = some v :=
  idxOf?_eq_some_of_nodup numbering.nodup

/-- A variable is registered if it is new, and comes last. -/
theorem register_eq_ok {numbering numbering' : VariableNumbering} {v : StateVariable}
    (h : numbering.register v = .ok numbering') :
    numbering'.vars = numbering.vars ++ [v] ∧ numbering'.blocks = numbering.blocks := by
  rw [register] at h
  split at h
  · cases h
  · cases h
    exact ⟨rfl, rfl⟩

/-- Registered variables come last, in their order. -/
theorem registerAll_eq_ok {numbering numbering' : VariableNumbering} {vs : List StateVariable}
    (h : numbering.registerAll vs = .ok numbering') :
    numbering'.vars = numbering.vars ++ vs ∧ numbering'.blocks = numbering.blocks := by
  refine foldlM_invariant (P := fun done filled => filled.vars = numbering.vars ++ done ∧
    filled.blocks = numbering.blocks) ⟨(List.append_nil _).symm, rfl⟩ ?_ h
  rintro done v filled filled' - ⟨hvars, hblocks⟩ hstep
  obtain ⟨hvars', hblocks'⟩ := register_eq_ok hstep
  exact ⟨by rw [hvars', hvars, List.append_assoc], hblocks'.trans hblocks⟩

/-- A symbol whose variables are registered has no tuple twice. -/
theorem nodup_tuples_of_registerAll {numbering filled : VariableNumbering} {symbol : String}
    {domains : List (List String)}
    (h : numbering.registerAll ((tuples domains).map fun tuple => ⟨symbol, tuple⟩) = .ok filled) :
    (tuples domains).Nodup := by
  have hnodup := filled.nodup
  rw [(registerAll_eq_ok h).1] at hnodup
  exact (List.nodup_append.1 hnodup).2.1.of_map

/-- Registering fails at the first of the variables that is there already. -/
theorem registerAll_eq_error {numbering : VariableNumbering} {vs : List StateVariable}
    {e : GroundingError} (h : numbering.registerAll vs = .error e) :
    ∃ before v after, vs = before ++ v :: after ∧ (numbering.vars ++ before).Nodup ∧
      v ∈ numbering.vars ++ before ∧ e = .duplicateRegistration v := by
  obtain ⟨before, v, after, filled, rfl, hbefore, h⟩ := cut_of_foldlM_eq_error h
  have hvars := (registerAll_eq_ok hbefore).1
  refine ⟨before, v, after, rfl, hvars ▸ filled.nodup, ?_⟩
  rw [register] at h
  split at h
  · rename_i hmem
    cases h
    exact ⟨hvars ▸ hmem, rfl⟩
  · cases h

/-! ### Strides -/

/-- One step of the loop takes a product, which has to be a word. -/
theorem pushStride_eq_ok {found found' : UInt64 × List UInt64} {listing : List String} :
    pushStride found listing = .ok found' ↔ found.1.toNat * listing.length < UInt64.size ∧
      found' = (UInt64.ofNat (found.1.toNat * listing.length), found.1 :: found.2) := by
  rw [pushStride]
  by_cases h : found.1.toNat * listing.length < UInt64.size
  · simp [h, eq_comm]
  · simp [h]

/-- One step of the loop fails if the product is no word. -/
theorem pushStride_eq_error {found : UInt64 × List UInt64} {listing : List String}
    {e : GroundingError} :
    pushStride found listing = .error e ↔
      UInt64.size ≤ found.1.toNat * listing.length ∧ e = .strideOverflow := by
  rw [pushStride]
  by_cases h : found.1.toNat * listing.length < UInt64.size
  · simp [h]
  · simp [h, Nat.le_of_not_lt h, eq_comm]

/-- The invariant of the loop: what it has found are the weights of the places that it has been
to. -/
theorem toNat_foldlM_pushStride {listings : List (List String)} {found : UInt64 × List UInt64}
    (h : listings.foldlM pushStride (1, []) = .ok found) (first : List String) :
    (found.1 :: found.2).map UInt64.toNat = placeWeights (first :: listings.reverse) := by
  refine foldlM_invariant (P := fun done found => (found.1 :: found.2).map UInt64.toNat
    = placeWeights (first :: done.reverse)) rfl ?_ h
  rintro done listing found found' - hdone hstep
  obtain ⟨hword, rfl⟩ := pushStride_eq_ok.1 hstep
  -- The stride found last counts the tuples of all places behind it.
  have hfirst : found.1.toNat = tupleCount done.reverse := (List.cons.inj hdone).1
  show (UInt64.ofNat (found.1.toNat * listing.length)).toNat :: List.map _ (found.1 :: found.2)
    = placeWeights (first :: (done ++ [listing]).reverse)
  rw [UInt64.toNat_ofNat_of_lt' hword, hdone, hfirst, List.reverse_append, List.reverse_singleton,
    List.singleton_append, placeWeights, placeWeights, placeWeights, tupleCount_cons, Nat.mul_comm]

/-- The tuples of the last places are the weight of the place in front of them. -/
theorem tupleCount_mem_placeWeights (first : List String) (before after : List (List String)) :
    tupleCount after ∈ placeWeights (first :: (before ++ after)) := by
  induction before generalizing first with
  | nil => exact List.mem_cons_self
  | cons d before ih => exact List.mem_cons_of_mem _ (ih d)

/-- A product that the loop takes is a weight. -/
theorem product_mem_placeWeights {before after : List (List String)} {listing : List String}
    {found : UInt64 × List UInt64} (h : before.foldlM pushStride (1, []) = .ok found)
    (first : List String) :
    found.1.toNat * listing.length
      ∈ placeWeights (first :: (before ++ listing :: after).reverse) := by
  have hfound : found.1.toNat = tupleCount before.reverse :=
    (List.cons.inj (toNat_foldlM_pushStride h first)).1
  have hmem := tupleCount_mem_placeWeights first after.reverse (listing :: before.reverse)
  rw [tupleCount_cons, ← hfound, Nat.mul_comm] at hmem
  simpa using hmem

/-- Listings over which the weight of some place is no word. -/
def TooWide (domains : List (List String)) : Prop := ∃ w ∈ placeWeights domains, UInt64.size ≤ w

/-- The loop finds the weights of all places, unless it fails. -/
theorem toNat_strides {domains : List (List String)} {found : List UInt64}
    (h : strides domains = .ok found) : found.map UInt64.toNat = placeWeights domains := by
  cases domains with
  | nil =>
    cases h
    rfl
  | cons d ds =>
    obtain ⟨found, hfound, h⟩ := bind_eq_ok.1 h
    cases h
    rw [toNat_foldlM_pushStride hfound d, List.reverse_reverse]

/-- Weights that the loop has found are words. -/
theorem not_tooWide_of_strides {domains : List (List String)} {found : List UInt64}
    (h : strides domains = .ok found) : ¬ TooWide domains := by
  rintro ⟨w, hw, hlarge⟩
  rw [← toNat_strides h] at hw
  obtain ⟨word, -, rfl⟩ := List.mem_map.1 hw
  exact absurd word.toNat_lt (Nat.not_lt.2 hlarge)

/-- A loop that fails has stopped at a listing: it has been to the places behind it, and the step to
the place in front fails. -/
theorem cut_of_strides_eq_error {domains : List (List String)} {e : GroundingError}
    (h : strides domains = .error e) :
    ∃ first before listing after found, domains = first :: (before ++ listing :: after).reverse ∧
      before.foldlM pushStride (1, []) = .ok found ∧ pushStride found listing = .error e := by
  cases domains with
  | nil => cases h
  | cons first listings =>
    rw [strides, bind_eq_error] at h
    rcases h with h | ⟨found, -, h⟩
    · obtain ⟨before, listing, after, found, hcut, hbefore, hstep⟩ := cut_of_foldlM_eq_error h
      refine ⟨first, before, listing, after, found, ?_, hbefore, hstep⟩
      rw [← hcut, List.reverse_reverse]
    · cases h

/-- The loop fails exactly if some weight is no word, and with one error only. -/
theorem strides_eq_error {domains : List (List String)} {e : GroundingError} :
    strides domains = .error e ↔ TooWide domains ∧ e = .strideOverflow := by
  have hfails {e : GroundingError} (h : strides domains = .error e) :
      TooWide domains ∧ e = .strideOverflow := by
    obtain ⟨first, before, listing, after, found, rfl, hbefore, hstep⟩ := cut_of_strides_eq_error h
    obtain ⟨hlarge, rfl⟩ := pushStride_eq_error.1 hstep
    exact ⟨⟨_, product_mem_placeWeights hbefore first, hlarge⟩, rfl⟩
  refine ⟨hfails, ?_⟩
  rintro ⟨hwide, rfl⟩
  cases hfound : strides domains with
  | ok found => exact absurd hwide (not_tooWide_of_strides hfound)
  | error e => rw [(hfails hfound).2]

/-- The loop succeeds exactly if all weights are words. -/
theorem exists_strides_iff {domains : List (List String)} :
    (∃ found, strides domains = .ok found) ↔ ¬ TooWide domains := by
  constructor
  · rintro ⟨found, h⟩
    exact not_tooWide_of_strides h
  · intro h
    cases hfound : strides domains with
    | ok found => exact ⟨found, rfl⟩
    | error e => exact absurd (strides_eq_error.1 hfound).1 h

/-! ### Blocks -/

/-- The listings of the parameter types of a symbol. -/
def HasDomains (table : SymbolTable) (s : Symbol) (domains : List (List String)) : Prop :=
  List.Forall₂ (fun type listing => table.domain? type = some listing) s.params domains

/-- The domains of a symbol are the listings of its parameter types. -/
theorem argumentDomains_eq_ok {table : SymbolTable} {s : Symbol} {domains : List (List String)} :
    argumentDomains table s = .ok domains ↔ HasDomains table s domains := by
  rw [argumentDomains, mapM_eq_ok, HasDomains]
  refine iff_of_eq (congrArg (fun R => List.Forall₂ R s.params domains) ?_)
  funext type listing
  cases table.domain? type <;> simp

/-- A symbol has at most one list of domains. -/
theorem HasDomains.unique {table : SymbolTable} {s : Symbol} {domains domains' : List (List String)}
    (h : HasDomains table s domains) (h' : HasDomains table s domains') : domains = domains' := by
  rw [← argumentDomains_eq_ok] at h h'
  exact Except.ok.inj (h.symm.trans h')

/-- Blocks that follow one another without a gap, from one handle up to another. -/
def Tiles : Nat → List SymbolBlock → Nat → Prop
  | start, [], stop => start = stop
  | start, block :: rest, stop => block.base = start ∧ Tiles (start + block.size) rest stop

/-- One more block begins where the others stop. -/
theorem tiles_append {start middle stop : Nat} {blocks : List SymbolBlock} {block : SymbolBlock}
    (h : Tiles start blocks middle) (hbase : block.base = middle)
    (hstop : middle + block.size = stop) : Tiles start (blocks ++ [block]) stop := by
  induction blocks generalizing start with
  | nil =>
    cases h
    exact ⟨hbase, hstop⟩
  | cons first rest ih => exact ⟨h.1, ih h.2⟩

/-- The sizes of the blocks add up to the handles that they tile. -/
theorem sum_size_of_tiles {start stop : Nat} {blocks : List SymbolBlock}
    (h : Tiles start blocks stop) : start + (blocks.map (·.size)).sum = stop := by
  induction blocks generalizing start with
  | nil => exact h
  | cons first rest ih =>
    rw [List.map_cons, List.sum_cons, ← Nat.add_assoc]
    exact ih h.2

/-- Every handle lies in a block. -/
theorem exists_block_of_tiles {start stop : Nat} {blocks : List SymbolBlock}
    (h : Tiles start blocks stop) {handle : Nat} (hle : start ≤ handle) (hlt : handle < stop) :
    ∃ block ∈ blocks, block.base ≤ handle ∧ handle < block.base + block.size := by
  induction blocks generalizing start with
  | nil =>
    cases h
    omega
  | cons first rest ih =>
    obtain ⟨hbase, hrest⟩ := h
    by_cases hfirst : handle < start + first.size
    · exact ⟨first, List.mem_cons_self, by omega, by omega⟩
    · obtain ⟨block, hmem, hin⟩ := ih hrest (by omega)
      exact ⟨block, List.mem_cons_of_mem first hmem, hin⟩

/-- What the block of a symbol says about a numbering: the variables from its base on are those of
the symbol, in the order of the odometer. -/
structure Describes (table : SymbolTable) (numbering : VariableNumbering) (s : Symbol)
    (block : SymbolBlock) (domains : List (List String)) : Prop where
  symbol : block.symbol = s.name
  hasDomains : HasDomains table s domains
  strides : strides domains = .ok block.strides
  size : block.size = tupleCount domains
  variableAt? : ∀ i < block.size, numbering.variableAt? (block.base + i)
    = (tuples domains)[i]?.map fun tuple => ⟨s.name, tuple⟩

variable {table : SymbolTable} {numbering numbering' : VariableNumbering} {s : Symbol}
  {block : SymbolBlock} {domains : List (List String)}

/-- What a block says stays true when variables are appended. -/
theorem Describes.append {more : List StateVariable} (h : Describes table numbering s block domains)
    (hvars : numbering'.vars = numbering.vars ++ more) :
    Describes table numbering' s block domains := by
  refine ⟨h.symbol, h.hasDomains, h.strides, h.size, fun i hi => ?_⟩
  have hget := h.variableAt? i hi
  -- The variable is there already, since the odometer has a tuple at that place.
  obtain ⟨v, hv⟩ : ∃ v, numbering.vars[block.base + i]? = some v := by
    have hi' : i < (tuples domains).length := by
      rw [length_tuples, ← h.size]
      exact hi
    rw [List.getElem?_eq_getElem hi'] at hget
    exact ⟨_, hget⟩
  obtain ⟨hlt, -⟩ := List.getElem?_eq_some_iff.1 hv
  rw [← hget, VariableNumbering.variableAt?, VariableNumbering.variableAt?, hvars,
    List.getElem?_append_left hlt]

/-- The variables of one more symbol are appended, and so is a block that describes them. -/
theorem addSymbol_eq_ok (h : addSymbol table numbering s = .ok numbering') :
    ∃ block domains, numbering'.blocks = numbering.blocks ++ [block] ∧
      block.base = numbering.size ∧ numbering'.size = numbering.size + block.size ∧
      (∃ more, numbering'.vars = numbering.vars ++ more) ∧
      Describes table numbering' s block domains := by
  rw [addSymbol] at h
  obtain ⟨domains, hdomains, h⟩ := bind_eq_ok.1 h
  obtain ⟨filled, hfilled, h⟩ := bind_eq_ok.1 h
  obtain ⟨found, hfound, h⟩ := bind_eq_ok.1 h
  obtain ⟨hvars, -⟩ := registerAll_eq_ok hfilled
  cases h
  refine ⟨_, domains, rfl, rfl, ?_, ⟨_, hvars⟩, rfl, argumentDomains_eq_ok.1 hdomains, hfound,
    length_tuples domains, fun i _ => ?_⟩
  · show filled.vars.length = numbering.vars.length + _
    rw [hvars, List.length_append, List.length_map]
  · show filled.vars[numbering.vars.length + i]? = _
    rw [hvars, List.getElem?_append_right (Nat.le_add_right _ _), Nat.add_sub_cancel_left,
      List.getElem?_map]

/-- The invariant of the numbering of a task: every symbol done so far has a block that describes
its variables, and the blocks tile the handles. -/
theorem ofSymbols_describes {c : Classification} {order : SymbolOrder}
    (h : ofSymbols table c order = .ok numbering) :
    List.Forall₂ (fun s block => ∃ domains, Describes table numbering s block domains)
      (orderedFluents table c order) numbering.blocks ∧
      Tiles 0 numbering.blocks numbering.size := by
  refine foldlM_invariant (b := empty) (P := fun done numbering => List.Forall₂
    (fun s block => ∃ domains, Describes table numbering s block domains) done numbering.blocks ∧
      Tiles 0 numbering.blocks numbering.size) ⟨.nil, rfl⟩ ?_ h
  rintro done s numbering numbering' - ⟨hdescribes, htiles⟩ hstep
  obtain ⟨block, domains, hblocks, hbase, hsize, ⟨more, hvars⟩, hblock⟩ := addSymbol_eq_ok hstep
  rw [hblocks]
  refine ⟨List.rel_append ?_ (.cons ⟨domains, hblock⟩ .nil), tiles_append htiles hbase hsize.symm⟩
  exact hdescribes.imp fun _ _ ⟨domains, h⟩ => ⟨domains, h.append hvars⟩

/-! ### The symbols behind the blocks -/

/-- The ordered fluent symbols are the fluent symbols of the table. -/
theorem mem_orderedFluents {c : Classification} {order : SymbolOrder} :
    s ∈ orderedFluents table c order ↔ s ∈ table.symbols ∧ c.isFluent s.name = true := by
  cases order with
  | declaration => rw [orderedFluents, List.mem_filter]
  | arity => simp only [orderedFluents, List.mem_mergeSort, List.mem_filter]

/-- The ordered fluent symbols have unique names if the symbols of the table do. -/
theorem nodup_orderedFluents (hnodup : table.names.Nodup) (c : Classification)
    (order : SymbolOrder) : ((orderedFluents table c order).map (·.name)).Nodup := by
  have hfilter : ((table.symbols.filter fun s => c.isFluent s.name).map (·.name)).Nodup :=
    hnodup.sublist (List.filter_sublist.map _)
  cases order with
  | declaration => exact hfilter
  | arity => exact ((List.mergeSort_perm _ _).map _).nodup_iff.2 hfilter

/-- The blocks bear the names of the symbols that they describe. -/
theorem map_symbol_of_describes {symbols : List Symbol} {blocks : List SymbolBlock}
    (h : List.Forall₂ (fun s block => ∃ domains, Describes table numbering s block domains)
      symbols blocks) : blocks.map (·.symbol) = symbols.map (·.name) := by
  induction h with
  | nil => rfl
  | cons hblock _ ih =>
    obtain ⟨domains, hblock⟩ := hblock
    rw [List.map_cons, List.map_cons, ih, hblock.symbol]

/-- A fluent symbol has a block, which describes its variables. -/
theorem exists_block_of_isFluent (hnodup : table.names.Nodup) {c : Classification}
    {order : SymbolOrder} (h : ofSymbols table c order = .ok numbering) (hs : s ∈ table.symbols)
    (hfluent : c.isFluent s.name = true) :
    ∃ block domains, numbering.block? s.name = some block ∧
      Describes table numbering s block domains := by
  obtain ⟨hdescribes, -⟩ := ofSymbols_describes h
  obtain ⟨i, hi, hget⟩ := List.mem_iff_getElem.1 (mem_orderedFluents.2 ⟨hs, hfluent⟩)
  have hi' : i < numbering.blocks.length := hdescribes.length_eq ▸ hi
  obtain ⟨domains, hblock⟩ := (List.forall₂_iff_get.1 hdescribes).2 i hi hi'
  simp only [List.get_eq_getElem, hget] at hblock
  refine ⟨numbering.blocks[i], domains, ?_, hblock⟩
  -- The first block of that name is this one, since the names of blocks are unique.
  have hunique : (numbering.blocks.map (·.symbol)).Nodup := by
    rw [map_symbol_of_describes hdescribes]
    exact nodup_orderedFluents hnodup c order
  cases hfind : numbering.block? s.name with
  | none =>
    rw [VariableNumbering.block?, List.find?_eq_none] at hfind
    exact absurd (decide_eq_true hblock.symbol) (hfind _ (List.getElem_mem hi'))
  | some other =>
    have hother : other.symbol = s.name := by simpa using List.find?_some hfind
    rw [List.inj_on_of_nodup_map hunique (List.mem_of_find?_eq_some hfind) (List.getElem_mem hi')
      (hother.trans hblock.symbol.symm)]

/-! ### Handles -/

/-- The handle of a variable is the base of its block plus the numeral of its positions. -/
theorem Describes.handle? (h : Describes table numbering s block domains) {positions : List Nat}
    {args : List String} (hargs : tuple? domains positions = some args) :
    numbering.handle? ⟨s.name, args⟩ = some (block.base + numeral domains positions) := by
  have hwithin := within_of_tuple? hargs
  have hlt : numeral domains positions < block.size := by
    rw [h.size]
    exact numeral_lt hwithin
  rw [handle?_eq_some, h.variableAt? _ hlt, getElem?_tuples hwithin, hargs, Option.map_some]

/-- A variable whose handle lies in a block is one of the block's symbol, at some positions. -/
theorem Describes.positions (h : Describes table numbering s block domains) {v : StateVariable}
    {handle : Nat} (hv : numbering.handle? v = some handle) (hle : block.base ≤ handle)
    (hlt : handle < block.base + block.size) :
    v.symbol = s.name ∧ ∃ positions, tuple? domains positions = some v.args := by
  obtain ⟨i, rfl⟩ := Nat.exists_eq_add_of_le hle
  rw [handle?_eq_some, h.variableAt? i (by omega), Option.map_eq_some_iff] at hv
  obtain ⟨tuple, htuple, rfl⟩ := hv
  exact ⟨rfl, mem_tuples.1 (List.mem_of_getElem? htuple)⟩

/-- Every variable with a handle is a fluent symbol at some positions of its domains. -/
theorem exists_positions_of_handle? {c : Classification} {order : SymbolOrder}
    (h : ofSymbols table c order = .ok numbering) {v : StateVariable} {handle : Nat}
    (hv : numbering.handle? v = some handle) :
    ∃ s ∈ table.symbols, c.isFluent s.name = true ∧ v.symbol = s.name ∧
      ∃ domains positions, HasDomains table s domains ∧ tuple? domains positions = some v.args := by
  obtain ⟨hdescribes, htiles⟩ := ofSymbols_describes h
  have hlt : handle < numbering.size := by
    rw [handle?_eq_some] at hv
    exact (List.getElem?_eq_some_iff.1 hv).1
  -- The handle lies in some block, and the block knows what stands there.
  obtain ⟨block, hmem, hle, hlt⟩ := exists_block_of_tiles htiles (Nat.zero_le handle) hlt
  obtain ⟨i, hi, rfl⟩ := List.mem_iff_getElem.1 hmem
  have hi' : i < (orderedFluents table c order).length := hdescribes.length_eq ▸ hi
  obtain ⟨domains, hblock⟩ := (List.forall₂_iff_get.1 hdescribes).2 i hi' hi
  obtain ⟨hs, hfluent⟩ := mem_orderedFluents.1 (List.getElem_mem hi')
  obtain ⟨hsymbol, positions, hpositions⟩ := hblock.positions hv hle hlt
  exact ⟨_, hs, hfluent, hsymbol, domains, positions, hblock.hasDomains, hpositions⟩

/-- What strides add to the base of a block. -/
def offset (strides : List UInt64) (positions : List Nat) : Nat :=
  (List.zipWith (fun p stride => p * stride.toNat) positions strides).sum

/-- The strides of a block add up to the numeral of the positions. -/
theorem Describes.offset_eq (h : Describes table numbering s block domains)
    (positions : List Nat) : offset block.strides positions = numeral domains positions := by
  rw [numeral_eq_sum, ← toNat_strides h.strides, List.zipWith_map_right]
  rfl

/-! ### The numbering of a task -/

/-- The numbering of a task enumerates the products of the domains of its fluent symbols, and its
blocks recompute the handles: the strides are the weights of the places. -/
theorem ofSymbols_enumerates {t : Task} (htable : SymbolTable.ofTask t = .ok table)
    {c : Classification} {order : SymbolOrder} (h : ofSymbols table c order = .ok numbering) :
    numbering.blocks.map (·.symbol) = (orderedFluents table c order).map (·.name) ∧
    Tiles 0 numbering.blocks numbering.size ∧
    (numbering.blocks.map (·.size)).sum = numbering.size ∧
    (∀ s ∈ table.symbols, c.isFluent s.name = true →
      ∃ block domains, numbering.block? s.name = some block ∧ HasDomains table s domains ∧
        ∀ positions, Within domains positions → ∃ args handle,
          tuple? domains positions = some args ∧
          numbering.handle? ⟨s.name, args⟩ = some handle ∧
          numbering.variableAt? handle = some ⟨s.name, args⟩ ∧
          handle = block.base + (List.zipWith (· * ·) positions (placeWeights domains)).sum ∧
          handle = block.base + offset block.strides positions) ∧
    ∀ v handle, numbering.handle? v = some handle →
      ∃ s ∈ table.symbols, c.isFluent s.name = true ∧ v.symbol = s.name ∧
        ∃ domains positions, HasDomains table s domains ∧
          tuple? domains positions = some v.args := by
  have hnodup := (SymbolTable.declares_of_ofTask htable).1.nodup
  obtain ⟨hdescribes, htiles⟩ := ofSymbols_describes h
  have hsum := sum_size_of_tiles htiles
  rw [Nat.zero_add] at hsum
  refine ⟨map_symbol_of_describes hdescribes, htiles, hsum, ?_,
    fun v handle => exists_positions_of_handle? h⟩
  intro s hs hfluent
  obtain ⟨block, domains, hblock?, hblock⟩ := exists_block_of_isFluent hnodup h hs hfluent
  refine ⟨block, domains, hblock?, hblock.hasDomains, fun positions hwithin => ?_⟩
  obtain ⟨args, hargs⟩ := Option.isSome_iff_exists.1 ((tuple?_isSome domains positions).2 hwithin)
  have hhandle := hblock.handle? hargs
  refine ⟨args, _, hargs, hhandle, handle?_eq_some.1 hhandle, ?_, ?_⟩
  · rw [numeral_eq_sum]
  · rw [hblock.offset_eq]

/-- A task with two fluent symbols, over types of different sizes. -/
def parkingTask : Task where
  domain := "parking"
  instanceName := "one"
  typeDomains := [⟨"car", ["a", "b"]⟩, ⟨"place", ["x", "y", "z"]⟩]
  objects := ["a", "b", "x", "y", "z"]
  predicates := [⟨"at", ["car", "place"]⟩, ⟨"free", ["place"]⟩]
  functions := []
  actions := [⟨"park", [⟨"?c", "car"⟩, ⟨"?p", "place"⟩], .atom "free" [.param "?p"] false,
    [⟨"at", [.param "?c", .param "?p"], none, false, none⟩,
      ⟨"free", [.param "?p"], none, true, none⟩]⟩]
  init := []
  constraints := []
  goal := none

/-- The numbering of `parkingTask` succeeds. Its two blocks tile nine handles. -/
theorem ofSymbols_enumerates_parking :
    ∃ table c numbering, SymbolTable.ofTask parkingTask = .ok table ∧
      Classification.ofActions parkingTask.actions table = .ok c ∧
      ofSymbols table c .declaration = .ok numbering ∧
      numbering.blocks.map (·.symbol) = ["at", "free"] ∧ numbering.size = 9 ∧
      Tiles 0 numbering.blocks 9 := by
  obtain ⟨table, htable⟩ : ∃ table, SymbolTable.ofTask parkingTask = .ok table := ⟨_, rfl⟩
  obtain ⟨c, hc⟩ : ∃ c, Classification.ofActions parkingTask.actions table = .ok c := by
    cases htable
    exact ⟨_, rfl⟩
  obtain ⟨numbering, hnumbering, hsize⟩ : ∃ numbering,
      ofSymbols table c .declaration = .ok numbering ∧ numbering.size = 9 := by
    cases htable
    cases hc
    exact ⟨_, rfl, rfl⟩
  obtain ⟨hsymbols, htiles, -⟩ := ofSymbols_enumerates htable hnumbering
  refine ⟨table, c, numbering, htable, hc, hnumbering, ?_, hsize, hsize ▸ htiles⟩
  rw [hsymbols]
  cases htable
  cases hc
  rfl

end VariableNumbering

end Grounder
