import Grounder.Code.Listing
import Grounder.Proofs.VariableNumbering

/-!
# `Grounder.Proofs.StrideRange`: strides that stay below the size of a word

The stride of a place is a product: the stride of the next place times the size of its listing. The
loop goes from the last place to the first, and a product that is no word of 64 bits breaks off the
run (`Multiplies`).

A symbol whose listings all have objects has as many handles as its listings have tuples. Its
products count the tuples of its last places, and these are not more. So they stay below `2 ^ 64` if
the handles do. Beside an empty listing there are no handles, and nothing bounds the listings after
the last empty one (`afterLastEmpty`). They alone decide whether a product gets too large:

* `forall_multiplies_lt_iff`: no product is too large exactly if every weight of a place is a word.
* `forall_placeWeights_lt_iff`: the weights are words exactly if the listings after the last empty
  one have fewer than `2 ^ 64` tuples.
* `stride_products_fit_iff`: what this means for a symbol at which the run has arrived, for the block
  that it gets, and for its line in the data file.

`wide_symbol_overflows` is a symbol without handles that breaks off the run.
-/

set_option autoImplicit false

namespace Grounder

namespace VariableNumbering

open Proofs.Support Odometer

/-! ### Products -/

/-- The loop over the places takes a product: it has been to all places behind it, and the stride
that it found last is multiplied by the size of a listing. -/
def Multiplies (domains : List (List String)) (product : Nat) : Prop :=
  ∃ first before listing after found, domains = first :: (before ++ listing :: after).reverse ∧
    before.foldlM pushStride (1, []) = .ok found ∧ product = found.1.toNat * listing.length

/-- The listings after the last empty one, or all of them if none is empty. -/
def afterLastEmpty : List (List String) → List (List String)
  | [] => []
  | d :: ds => if [] ∈ d :: ds then afterLastEmpty ds else d :: ds

variable {d : List String} {ds domains : List (List String)}

/-- A loop that fails has taken a product that is too large. -/
theorem exists_multiplies_of_tooWide (h : TooWide domains) :
    ∃ p, Multiplies domains p ∧ 2 ^ 64 ≤ p := by
  obtain ⟨first, before, listing, after, found, hdomains, hbefore, hstep⟩ :=
    cut_of_strides_eq_error (strides_eq_error.2 ⟨h, rfl⟩)
  exact ⟨_, ⟨first, before, listing, after, found, hdomains, hbefore, rfl⟩,
    (pushStride_eq_error.1 hstep).1⟩

/-- No product is too large exactly if every weight of a place is a word. -/
theorem forall_multiplies_lt_iff (domains : List (List String)) :
    (∀ p, Multiplies domains p → p < 2 ^ 64) ↔ ∀ w ∈ placeWeights domains, w < 2 ^ 64 := by
  constructor
  · intro h w hw
    by_contra hlarge
    obtain ⟨p, hp, hle⟩ := exists_multiplies_of_tooWide ⟨w, hw, Nat.le_of_not_lt hlarge⟩
    exact absurd (h p hp) (Nat.not_lt.2 hle)
  · rintro h p ⟨first, before, listing, after, found, rfl, hfound, rfl⟩
    exact h _ (product_mem_placeWeights hfound first)

/-- The loop finds strides exactly if no product is too large. -/
theorem exists_strides_iff_multiplies (domains : List (List String)) :
    (∃ found, strides domains = .ok found) ↔ ∀ p, Multiplies domains p → p < 2 ^ 64 := by
  rw [exists_strides_iff, forall_multiplies_lt_iff, TooWide, not_exists]
  exact forall_congr' fun w => by rw [not_and, Nat.not_le]; rfl

/-! ### Weights -/

/-- Without an empty listing, no listing is left out. -/
theorem afterLastEmpty_of_not_mem (h : [] ∉ domains) : afterLastEmpty domains = domains := by
  cases domains with
  | nil => rfl
  | cons d ds => rw [afterLastEmpty, if_neg h]

/-- All listings together have few tuples, and so have those after each place, exactly if the
listings after the last empty one have. -/
theorem forall_tupleCount_lt_iff (domains : List (List String)) :
    (tupleCount domains < 2 ^ 64 ∧ ∀ w ∈ placeWeights domains, w < 2 ^ 64) ↔
      tupleCount (afterLastEmpty domains) < 2 ^ 64 := by
  induction domains with
  | nil => simp [placeWeights, afterLastEmpty]
  | cons d ds ih =>
    rw [placeWeights, List.forall_mem_cons, ih, afterLastEmpty]
    by_cases hempty : [] ∈ d :: ds
    · rw [if_pos hempty, tupleCount_eq_zero hempty]
      exact and_iff_right (by decide)
    · rw [if_neg hempty]
      rw [List.mem_cons, not_or] at hempty
      rw [afterLastEmpty_of_not_mem hempty.2, tupleCount_cons]
      -- The first listing has an object, so the others have no more tuples without it.
      have hd : 0 < d.length := List.length_pos_iff.2 (Ne.symm hempty.1)
      have hle := Nat.le_mul_of_pos_left (tupleCount ds) hd
      constructor
      · intro h
        exact h.1
      · intro h
        exact ⟨h, by omega⟩

/-- Every weight is a word exactly if the listings after the last empty one have fewer tuples than
there are words, provided that all listings together have. -/
theorem forall_placeWeights_lt_iff (hcount : tupleCount domains < 2 ^ 64) :
    (∀ w ∈ placeWeights domains, w < 2 ^ 64) ↔ tupleCount (afterLastEmpty domains) < 2 ^ 64 := by
  rw [← forall_tupleCount_lt_iff, and_iff_right hcount]

end VariableNumbering

/-- Strides as the data file shows them. -/
def GroundModel.stridesText (strides : List Nat) : String :=
  if strides.isEmpty then absentMark else ",".intercalate (strides.map toString)

/-- The data file shows the strides of the block as numbers. -/
theorem GroundModel.blockText_eq {m : GroundModel} {symbol : String} {block : SymbolBlock}
    (h : m.numbering.block? symbol = some block) :
    m.blockText symbol
      = toString block.base ++ " " ++ stridesText (block.strides.map UInt64.toNat) := by
  rw [blockText, h, stridesText, List.isEmpty_map, List.map_map]
  rfl

namespace VariableNumbering

open Odometer

/-! ### The block of a symbol -/

/-- The numbering that the run over the fluent symbols has made when it comes to a symbol. -/
def Reaches (table : SymbolTable) (c : Classification) (order : SymbolOrder) (s : Symbol)
    (numbering : VariableNumbering) : Prop :=
  ∃ before after, orderedFluents table c order = before ++ s :: after ∧
    before.foldlM (addSymbol table) empty = .ok numbering

variable {table : SymbolTable} {c : Classification} {order : SymbolOrder} {s : Symbol}
  {numbering filled : VariableNumbering} {domains : List (List String)}

/-- A run comes to fluent symbols of the table only. -/
theorem Reaches.mem (h : Reaches table c order s numbering) :
    s ∈ table.symbols ∧ c.isFluent s.name = true := by
  obtain ⟨before, after, hsymbols, -⟩ := h
  rw [← mem_orderedFluents, hsymbols]
  exact List.mem_append_right before List.mem_cons_self

/-- The run has come to the strides of a symbol: its domains are known, and its variables are
registered. -/
structure ReachesStrides (table : SymbolTable) (c : Classification) (order : SymbolOrder)
    (s : Symbol) (numbering filled : VariableNumbering) (domains : List (List String)) : Prop where
  reaches : Reaches table c order s numbering
  hasDomains : HasDomains table s domains
  registered : numbering.registerAll ((tuples domains).map fun tuple => ⟨s.name, tuple⟩)
    = .ok filled

/-- What is left of adding a symbol when its strides are known. -/
theorem ReachesStrides.addSymbol_eq (h : ReachesStrides table c order s numbering filled domains) :
    addSymbol table numbering s = (strides domains).map fun found => { filled with
      blocks := numbering.blocks ++
        [⟨s.name, numbering.size, found, (tuples domains).length⟩] } := by
  rw [addSymbol, argumentDomains_eq_ok.2 h.hasDomains]
  show (numbering.registerAll _ >>= _) = _
  rw [h.registered]
  cases strides domains <;> rfl

/-- The run is broken off where strides are not found. -/
theorem ReachesStrides.ofSymbols_eq_error
    (h : ReachesStrides table c order s numbering filled domains) (hwide : TooWide domains) :
    ofSymbols table c order = .error .strideOverflow := by
  obtain ⟨before, after, hsymbols, hbefore⟩ := h.reaches
  rw [ofSymbols, hsymbols, List.foldlM_append, hbefore]
  show (addSymbol table numbering s >>= _) = _
  rw [h.addSymbol_eq, strides_eq_error.2 ⟨hwide, rfl⟩]
  rfl

/-- The registered variables are no fewer than the tuples of the symbol. -/
theorem ReachesStrides.tupleCount_le
    (h : ReachesStrides table c order s numbering filled domains) :
    tupleCount domains ≤ filled.size := by
  rw [VariableNumbering.size, (registerAll_eq_ok h.registered).1, List.length_append,
    List.length_map, length_tuples]
  exact Nat.le_add_left _ _

/-- Suppose that the run comes to the strides of a symbol, with fewer than `2 ^ 64` variables
registered. The products are all below `2 ^ 64` exactly if the listings after the last empty one have
fewer than `2 ^ 64` tuples, and so they are if no listing is empty. Then the symbol gets a block whose
strides are the weights of the places. Otherwise the symbol has no variables, and the run is broken
off. If a run succeeds, the data file shows the weights. -/
theorem stride_products_fit_iff {t : Task} (htable : SymbolTable.ofTask t = .ok table)
    (hreaches : ReachesStrides table c order s numbering filled domains)
    (hsize : filled.size < 2 ^ 64) :
    ((∀ p, Multiplies domains p → p < 2 ^ 64) ↔ tupleCount (afterLastEmpty domains) < 2 ^ 64) ∧
    ([] ∉ domains → ∀ p, Multiplies domains p → p < 2 ^ 64) ∧
    ((∀ p, Multiplies domains p → p < 2 ^ 64) → ∃ numbering' block,
      addSymbol table numbering s = .ok numbering' ∧
      numbering'.blocks = numbering.blocks ++ [block] ∧ block.symbol = s.name ∧
      block.strides.map UInt64.toNat = placeWeights domains) ∧
    ((∃ p, Multiplies domains p ∧ 2 ^ 64 ≤ p) →
      filled = numbering ∧ ofSymbols table c order = .error .strideOverflow) ∧
    ∀ m : GroundModel, ofSymbols table c order = .ok m.numbering →
      ∃ base : Nat, m.blockText s.name
        = toString base ++ " " ++ GroundModel.stridesText (placeWeights domains) := by
  -- The tuples are counted by the registered variables, and so their number is a word.
  have hcount : tupleCount domains < 2 ^ 64 := Nat.lt_of_le_of_lt hreaches.tupleCount_le hsize
  have hfits : (∀ p, Multiplies domains p → p < 2 ^ 64) ↔
      tupleCount (afterLastEmpty domains) < 2 ^ 64 := by
    rw [forall_multiplies_lt_iff, forall_placeWeights_lt_iff hcount]
  have hfilled : [] ∉ domains → ∀ p, Multiplies domains p → p < 2 ^ 64 := by
    intro h
    rw [hfits, afterLastEmpty_of_not_mem h]
    exact hcount
  refine ⟨hfits, hfilled, ?_, ?_, ?_⟩
  · intro hsmall
    obtain ⟨found, hfound⟩ := (exists_strides_iff_multiplies domains).2 hsmall
    have hadd := hreaches.addSymbol_eq
    rw [hfound] at hadd
    exact ⟨_, _, hadd, rfl, rfl, toNat_strides hfound⟩
  · rintro ⟨p, hp, hlarge⟩
    -- Only beside an empty listing can a product be too large, and then there are no tuples.
    have hempty : [] ∈ domains := by
      by_contra h
      exact absurd (hfilled h p hp) (Nat.not_lt.2 hlarge)
    refine ⟨?_, hreaches.ofSymbols_eq_error ?_⟩
    · have hregistered := hreaches.registered
      rw [tuples_eq_nil hempty] at hregistered
      exact (Except.ok.inj hregistered).symm
    · by_contra hwide
      have hsmall := (exists_strides_iff_multiplies domains).1 (exists_strides_iff.2 hwide)
      exact absurd (hsmall p hp) (Nat.not_lt.2 hlarge)
  · intro m hm
    obtain ⟨hs, hfluent⟩ := hreaches.reaches.mem
    have hnodup := (SymbolTable.declares_of_ofTask htable).1.nodup
    obtain ⟨block, domains', hblock, hdescribes⟩ := exists_block_of_isFluent hnodup hm hs hfluent
    refine ⟨block.base, ?_⟩
    rw [GroundModel.blockText_eq hblock, toNat_strides hdescribes.strides,
      hdescribes.hasDomains.unique hreaches.hasDomains]

/-- A task whose only fluent symbol ranges over the given types. One type has no objects. -/
def reachTask (types : List String) : Task where
  domain := "reach"
  instanceName := "one"
  typeDomains := [⟨"nowhere", []⟩, ⟨"bit", ["0", "1"]⟩]
  objects := ["0", "1"]
  predicates := [⟨"reach", types⟩]
  functions := []
  actions := [⟨"touch", [], .true, [⟨"reach", types.map fun _ => .object "0", none, false, none⟩]⟩]
  init := []
  constraints := []
  goal := none

/-- A symbol with an empty listing between two others has no handles, but its strides are exact. -/
theorem stride_products_fit_iff_between :
    let s : Symbol := ⟨⟨"reach", ["bit", "nowhere", "bit"], none⟩, 0⟩
    let domains := [["0", "1"], [], ["0", "1"]]
    ∃ table c, SymbolTable.ofTask (reachTask s.params) = .ok table ∧
      Classification.ofActions (reachTask s.params).actions table = .ok c ∧
      ReachesStrides table c .declaration s empty empty domains ∧ empty.size < 2 ^ 64 ∧
      (∀ p, Multiplies domains p → p < 2 ^ 64) ∧
      ∃ numbering block, addSymbol table empty s = .ok numbering ∧ numbering.blocks = [block] ∧
        block.strides.map UInt64.toNat = placeWeights domains := by
  intro s domains
  obtain ⟨table, htable⟩ : ∃ table, SymbolTable.ofTask (reachTask s.params) = .ok table :=
    ⟨_, rfl⟩
  obtain ⟨c, hc⟩ : ∃ c, Classification.ofActions (reachTask s.params).actions table = .ok c := by
    cases htable
    exact ⟨_, rfl⟩
  have hreaches : ReachesStrides table c .declaration s empty empty domains := by
    cases htable
    cases hc
    exact ⟨⟨[], [], rfl, rfl⟩, .cons rfl (.cons rfl (.cons rfl .nil)), rfl⟩
  have hsize : empty.size < 2 ^ 64 := by decide
  obtain ⟨hfits, -, hexact, -⟩ := stride_products_fit_iff htable hreaches hsize
  have hsmall := hfits.2 (by decide)
  obtain ⟨numbering, block, hadd, hblocks, -, hstrides⟩ := hexact hsmall
  exact ⟨table, c, htable, hc, hreaches, hsize, hsmall, numbering, block, hadd, hblocks, hstrides⟩

/-- A place for nothing and 64 places for bits. -/
def wideTypes : List String := "nowhere" :: List.replicate 64 "bit"

/-- The listings of these places. -/
def wideListings : List (List String) := [] :: List.replicate 64 ["0", "1"]

/-- The first of these places needs the stride `2 ^ 64`. -/
theorem tooWide_wideListings : TooWide wideListings :=
  ⟨2 ^ 64, by decide +kernel, by decide⟩

/-- The types are listed so in every table that has no objects of the one type and two of the
other. -/
theorem hasDomains_wideListings (hparams : s.params = wideTypes)
    (hnowhere : table.domain? "nowhere" = some [])
    (hbit : table.domain? "bit" = some ["0", "1"]) : HasDomains table s wideListings := by
  have hbits (n : Nat) :
      List.Forall₂ (fun type listing => table.domain? type = some listing)
        (List.replicate n "bit") (List.replicate n ["0", "1"]) := by
    induction n with
    | zero => exact .nil
    | succ n ih => exact .cons hbit ih
  rw [HasDomains, hparams]
  exact .cons hnowhere (hbits 64)

/-- Beside an empty listing, 64 listings of two objects need the stride `2 ^ 64` for the first
place. The symbol has no handles, and the run is broken off. -/
theorem wide_symbol_overflows :
    ∃ table c, SymbolTable.ofTask (reachTask wideTypes) = .ok table ∧
      Classification.ofActions (reachTask wideTypes).actions table = .ok c ∧
      ReachesStrides table c .declaration ⟨⟨"reach", wideTypes, none⟩, 0⟩ empty empty
        wideListings ∧
      empty.size < 2 ^ 64 ∧ (∃ p, Multiplies wideListings p ∧ 2 ^ 64 ≤ p) ∧
      ofSymbols table c .declaration = .error .strideOverflow ∧
      GroundModel.build (reachTask wideTypes) .declaration = .error .strideOverflow := by
  obtain ⟨table, htable⟩ : ∃ table, SymbolTable.ofTask (reachTask wideTypes) = .ok table :=
    ⟨_, rfl⟩
  obtain ⟨c, hc⟩ : ∃ c, Classification.ofActions (reachTask wideTypes).actions table = .ok c := by
    cases htable
    exact ⟨_, rfl⟩
  have hreaches : ReachesStrides table c .declaration ⟨⟨"reach", wideTypes, none⟩, 0⟩ empty empty
      wideListings := by
    cases htable
    cases hc
    exact ⟨⟨[], [], rfl, rfl⟩, hasDomains_wideListings rfl rfl rfl, rfl⟩
  have hfails := hreaches.ofSymbols_eq_error tooWide_wideListings
  -- Symbols and classes are found before, so grounding stops with the same error.
  refine ⟨table, c, htable, hc, hreaches, by decide,
    exists_multiplies_of_tooWide tooWide_wideListings, hfails, ?_⟩
  rw [GroundModel.build, htable]
  show (Classification.ofActions (reachTask wideTypes).actions table >>= _) = _
  rw [hc]
  show (ofSymbols table c .declaration >>= _) = _
  rw [hfails]
  rfl

end VariableNumbering

end Grounder
