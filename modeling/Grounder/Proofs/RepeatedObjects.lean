import Grounder.Proofs.GroundModel
import Grounder.Proofs.InitialState.Renumbering

/-!
# `Grounder.Proofs.RepeatedObjects`: objects that are declared again

Objects keep the id of their first declaration, so ids do not tell whether an object is declared
again. The type of all objects does: unless it has a listing of its own, it lists the objects as
they were declared, with the repetitions.

`objects_redeclared` compares a task with the task in which every object is declared once. If the
first is grounded, so is the second, and the models are the same, except for strides of symbols
that have no variables. But grounding fails, where it need not fail otherwise, if some fluent symbol
ranges over all objects and has variables, since it registers a variable twice (`RepeatsVariables`).
It also fails if such a symbol has no variables but a stride that is no word, since it counts the
repetitions (`WidensStrides`). `object_declared_twice` is a task of the first kind.
-/

set_option autoImplicit false

namespace Grounder

open Proofs.Support

/-- The task in which every object is declared once, at its first place. -/
def Task.withObjectsOnce (t : Task) : Task := { t with objects := t.objects.eraseDups }

/-! ### Listings -/

namespace SymbolTable

/-- The table with every object listed once. -/
def withObjectsOnce (table : SymbolTable) : SymbolTable :=
  { table with objects := table.objects.eraseDups }

/-- The type of all objects lists all objects if it has no listing of its own. -/
theorem domain?_objectType (table : SymbolTable)
    (h : ∀ d ∈ table.typeDomains, d.name ≠ objectType) :
    table.domain? objectType = some table.objects := by
  have hfind : table.typeDomains.reverse.find? (·.name = objectType) = none := by
    rw [List.find?_eq_none]
    intro d hd
    simpa using h d (List.mem_reverse.1 hd)
  rw [domain?, hfind]
  exact if_pos rfl

/-- Every type has the same listing, except for that of all objects if it has none of its own. -/
theorem domain?_withObjectsOnce (table : SymbolTable) (type : String) :
    table.withObjectsOnce.domain? type = table.domain? type ∨
      type = objectType ∧ ∀ d ∈ table.typeDomains, d.name ≠ objectType := by
  rw [domain?, domain?, withObjectsOnce]
  cases hfind : table.typeDomains.reverse.find? (·.name = type) with
  | some d => exact Or.inl rfl
  | none =>
    by_cases htype : type = objectType
    · subst htype
      refine Or.inr ⟨rfl, fun d hd => ?_⟩
      simpa using List.find?_eq_none.1 hfind d (List.mem_reverse.2 hd)
    · simp only [if_neg htype, true_or]

/-- The same types are known. -/
theorem knowsType_withObjectsOnce (table : SymbolTable) (type : String) :
    table.withObjectsOnce.knowsType type = table.knowsType type := by
  rw [knowsType, knowsType]
  rcases table.domain?_withObjectsOnce type with h | ⟨rfl, h⟩
  · rw [h]
  · rw [table.domain?_objectType h, table.withObjectsOnce.domain?_objectType h]
    rfl

/-- The same types are unknown. -/
theorem unknownType?_withObjectsOnce (table : SymbolTable) :
    table.withObjectsOnce.unknownType? = table.unknownType? := by
  simp only [unknownType?, knowsType_withObjectsOnce]
  rfl

/-- The table, if it knows the types of its symbols. -/
def checkTypes (table : SymbolTable) : Except GroundingError SymbolTable :=
  match table.unknownType? with
  | some e => .error e
  | none => .ok table

/-- The table of a task has the declared symbols, and is checked. -/
theorem ofTask_eq (t : Task) :
    ofTask t = (declarations t ++ impliedDeclarations (declarations t)).foldlM declare [] >>=
      fun symbols => checkTypes ⟨symbols, t.typeDomains, t.objects⟩ := rfl

/-- A task has the same symbols if every object is declared once, or the same error. -/
theorem ofTask_withObjectsOnce (t : Task) :
    ofTask t.withObjectsOnce = (ofTask t).map withObjectsOnce := by
  have hcheck (table : SymbolTable) :
      checkTypes table.withObjectsOnce = (checkTypes table).map withObjectsOnce := by
    rw [checkTypes, checkTypes, unknownType?_withObjectsOnce]
    cases table.unknownType? with
    | some e => rfl
    | none => rfl
  have hdeclared : declarations t.withObjectsOnce = declarations t := rfl
  rw [ofTask_eq, ofTask_eq, hdeclared]
  cases (declarations t ++ impliedDeclarations (declarations t)).foldlM declare [] with
  | error e => rfl
  | ok symbols => exact hcheck ⟨symbols, t.typeDomains, t.objects⟩

/-- The same names may stand where a type is asked for. -/
theorem inDomain_withObjectsOnce (table : SymbolTable) (type name : String) :
    InitialState.inDomain table.withObjectsOnce type name
      = InitialState.inDomain table type name := by
  rw [InitialState.inDomain, InitialState.inDomain]
  rcases table.domain?_withObjectsOnce type with h | ⟨rfl, h⟩
  · rw [h]
  · rw [table.domain?_objectType h, table.withObjectsOnce.domain?_objectType h,
      Option.getD_some, Option.getD_some, withObjectsOnce]
    have hcontains : table.objects.eraseDups.contains name = table.objects.contains name := by
      rw [Bool.eq_iff_iff, List.contains_iff_mem, List.contains_iff_mem, List.mem_eraseDups]
    rw [hcontains]

end SymbolTable

/-! ### Variables -/

namespace VariableNumbering

open Odometer

/-- A symbol that ranges over all objects, of which some are listed twice. -/
structure RangesOverRepeated (table : SymbolTable) (s : Signature) : Prop where
  /-- The type of all objects has no listing of its own. -/
  implicit : ∀ d ∈ table.typeDomains, d.name ≠ objectType
  repeated : ¬ table.objects.Nodup
  ranges : objectType ∈ s.params

/-- A symbol that ranges over repeated objects and has variables. -/
structure RepeatsTuples (table : SymbolTable) (s : Signature) : Prop
    extends RangesOverRepeated table s where
  /-- Every parameter can be filled in. -/
  filled : ∀ type ∈ s.params, ∃ listing, table.domain? type = some listing ∧ listing ≠ []

/-- A symbol that ranges over repeated objects and has a stride that is no word. -/
structure WidensStrides (table : SymbolTable) (s : Signature) : Prop
    extends RangesOverRepeated table s where
  wide : ∃ domains, List.Forall₂ (fun type listing => table.domain? type = some listing) s.params
    domains ∧ TooWide domains

/-- Blocks with the same handles. Only where there are none, the strides can be different. -/
structure SameHandles (block block' : SymbolBlock) : Prop where
  symbol : block'.symbol = block.symbol
  base : block'.base = block.base
  size : block'.size = block.size
  strides : 0 < block.size → block'.strides = block.strides

/-- Numberings that give every variable the same handle. -/
structure SameNumbering (numbering numbering' : VariableNumbering) : Prop where
  vars : numbering'.vars = numbering.vars
  blocks : List.Forall₂ SameHandles numbering.blocks numbering'.blocks

variable {table : SymbolTable} {numbering numbering' : VariableNumbering} {s : Symbol}

/-- Registering goes the same way from the same variables. -/
theorem registerAll_goesAs (h : numbering'.vars = numbering.vars) (vs : List StateVariable)
    (own : GroundingError → Prop) :
    GoesAs (fun filled filled' => filled'.vars = filled.vars) own
      (numbering.registerAll vs) (numbering'.registerAll vs) := by
  refine GoesAs.foldlM (fun v _ filled filled' hvars => ?_) h
  rw [register, register]
  by_cases hv : v ∈ filled.vars
  · rw [dif_pos hv, dif_pos (hvars ▸ hv)]
    exact .same _
  · rw [dif_neg hv, dif_neg (hvars ▸ hv)]
    exact .ok (congrArg (· ++ [v]) hvars)

/-- The same listing, or the same without repetitions if the symbol ranges over repeated objects. -/
def SameListing (table : SymbolTable) (s : Symbol) (listing listing' : List String) : Prop :=
  listing' = listing ∨
    listing' = listing.eraseDups ∧ RangesOverRepeated table s.toSignature

/-- The listings of the parameters are the same, except for repetitions in that of all objects. -/
theorem argumentDomains_goesAs (table : SymbolTable) (s : Symbol) (own : GroundingError → Prop) :
    GoesAs (List.Forall₂ (SameListing table s)) own
      (argumentDomains table s) (argumentDomains table.withObjectsOnce s) := by
  refine GoesAs.mapM fun type htype => ?_
  rcases table.domain?_withObjectsOnce type with h | ⟨rfl, h⟩
  · rw [h]
    cases table.domain? type with
    | none => exact .same _
    | some listing => exact .ok (Or.inl rfl)
  · rw [table.domain?_objectType h, table.withObjectsOnce.domain?_objectType h]
    by_cases hnodup : table.objects.Nodup
    · exact .ok (Or.inl (eraseDups_of_nodup hnodup))
    · exact .ok (Or.inr ⟨rfl, h, hnodup, htype⟩)

/-- A symbol that ranges over no repeated objects has the same domains. -/
theorem domains_eq_of_sameListing {domains domains' : List (List String)}
    (hlistings : List.Forall₂ (SameListing table s) domains domains')
    (h : ¬ RangesOverRepeated table s.toSignature) : domains' = domains := by
  rw [← List.forall₂_eq_eq_eq]
  exact hlistings.flip.imp fun _ _ hlisting => hlisting.resolve_right fun hlisting => h hlisting.2

/-- The domains of a symbol that does not repeat its tuples have the same tuples. If there are any,
the domains are the same. -/
theorem tuples_eq_of_sameListing {domains domains' : List (List String)}
    (hdomains : HasDomains table s domains)
    (hlistings : List.Forall₂ (SameListing table s) domains domains')
    (h : ¬ RepeatsTuples table s.toSignature) :
    tuples domains' = tuples domains ∧ (0 < (tuples domains).length → domains' = domains) := by
  by_cases hranges : RangesOverRepeated table s.toSignature
  · -- Some parameter cannot be filled in, before and after repetitions are left out.
    have hempty : [] ∈ domains := by
      by_contra hmem
      refine h ⟨hranges, fun type htype => ?_⟩
      obtain ⟨listing, hlisting, hdomain⟩ := exists_counterpart hdomains.flip htype
      exact ⟨listing, hdomain, fun hnil => hmem (hnil ▸ hlisting)⟩
    have hempty' : [] ∈ domains' := by
      obtain ⟨listing', hmem, hlisting⟩ := exists_counterpart hlistings.flip hempty
      rcases hlisting with rfl | ⟨rfl, -⟩
      · exact hmem
      · exact hmem
    rw [tuples_eq_nil hempty, tuples_eq_nil hempty']
    exact ⟨rfl, fun hpos => absurd hpos (Nat.lt_irrefl 0)⟩
  · have hsame := domains_eq_of_sameListing hlistings hranges
    exact ⟨by rw [hsame], fun _ => hsame⟩

/-- The listing of a parameter's type is among the domains of a symbol. -/
theorem HasDomains.mem_of_domain? {domains : List (List String)} (h : HasDomains table s domains)
    {type : String} (htype : type ∈ s.params) {listing : List String}
    (hlisting : table.domain? type = some listing) : listing ∈ domains := by
  obtain ⟨listing', hmem, h'⟩ := exists_counterpart h.flip htype
  rw [hlisting] at h'
  cases h'
  exact hmem

/-- If every parameter can be filled in, none of the domains is empty. -/
theorem HasDomains.nil_not_mem {domains : List (List String)} (h : HasDomains table s domains)
    (hfilled : ∀ type ∈ s.params, ∃ listing, table.domain? type = some listing ∧ listing ≠ []) :
    [] ∉ domains := by
  intro hempty
  obtain ⟨type, htype, hdomain⟩ := exists_counterpart h hempty
  obtain ⟨listing, hlisting, hne⟩ := hfilled type htype
  rw [hdomain] at hlisting
  exact hne (Option.some.inj hlisting).symm

/-- If no tuple over the domains of a symbol is listed twice, the symbol does not repeat them. -/
theorem not_repeatsTuples_of_nodup {domains : List (List String)}
    (hdomains : HasDomains table s domains) (h : (tuples domains).Nodup) :
    ¬ RepeatsTuples table s.toSignature := by
  intro hrepeats
  have hmem := hdomains.mem_of_domain? hrepeats.ranges
    (table.domain?_objectType hrepeats.implicit)
  exact hrepeats.repeated
    (nodup_of_nodup_tuples h (hdomains.nil_not_mem hrepeats.filled) hmem)

/-- The errors of a symbol that repetitions keep from getting handles. -/
inductive ReportsRepeated (table : SymbolTable) (s : Symbol) : GroundingError → Prop where
  /-- Its variables are registered twice. -/
  | repeats (h : RepeatsTuples table s.toSignature) {v : StateVariable} (hv : v.symbol = s.name) :
      ReportsRepeated table s (.duplicateRegistration v)
  /-- It has no variables, but its strides are computed. -/
  | widens (h : WidensStrides table s.toSignature) : ReportsRepeated table s .strideOverflow

/-- The variables of a symbol that repeats its tuples cannot be registered. -/
theorem registerAll_of_repeatsTuples (numbering : VariableNumbering) {domains : List (List String)}
    (hdomains : HasDomains table s domains) (h : RepeatsTuples table s.toSignature) :
    ∃ e, numbering.registerAll ((tuples domains).map fun tuple => ⟨s.name, tuple⟩) = .error e ∧
      ReportsRepeated table s e := by
  cases hfilled : numbering.registerAll ((tuples domains).map fun tuple => ⟨s.name, tuple⟩) with
  | ok filled =>
    have hnodup := nodup_tuples_of_registerAll hfilled
    exact absurd h (not_repeatsTuples_of_nodup hdomains hnodup)
  | error e =>
    obtain ⟨before, v, after, hcut, -, -, rfl⟩ := registerAll_eq_error hfilled
    have hv := List.mem_append_right before (List.mem_cons_self (a := v) (l := after))
    rw [← hcut] at hv
    obtain ⟨tuple, -, rfl⟩ := List.mem_map.1 hv
    exact ⟨_, rfl, .repeats h rfl⟩

/-- Shorter listings have no more tuples. -/
theorem tupleCount_le {domains domains' : List (List String)}
    (h : List.Forall₂ (fun d d' => d'.length ≤ d.length) domains domains') :
    tupleCount domains' ≤ tupleCount domains := by
  induction h with
  | nil => exact Nat.le_refl _
  | cons hd _ ih =>
    rw [tupleCount_cons, tupleCount_cons]
    exact Nat.mul_le_mul hd ih

/-- Shorter listings are not wider. -/
theorem TooWide.of_shorter {domains domains' : List (List String)} (h : TooWide domains')
    (hshorter : List.Forall₂ (fun d d' => d'.length ≤ d.length) domains domains') :
    TooWide domains := by
  induction hshorter with
  | nil => exact h
  | cons _ hrest ih =>
    obtain ⟨w, hw, hlarge⟩ := h
    rcases List.mem_cons.1 hw with rfl | hw
    · exact ⟨_, List.mem_cons_self, Nat.le_trans hlarge (tupleCount_le hrest)⟩
    · obtain ⟨w, hw, hlarge⟩ := ih ⟨w, hw, hlarge⟩
      exact ⟨w, List.mem_cons_of_mem _ hw, hlarge⟩

/-- The strides are the same if there are tuples, or the loop fails for both listings, or it fails
since repetitions are counted. -/
theorem strides_goesAs {domains domains' : List (List String)} (hdomains : HasDomains table s domains)
    (hlistings : List.Forall₂ (SameListing table s) domains domains')
    (hsame : 0 < (tuples domains).length → domains' = domains) :
    GoesAs (fun found found' => 0 < (tuples domains).length → found' = found)
      (ReportsRepeated table s) (strides domains) (strides domains') := by
  have hshorter : List.Forall₂ (fun d d' => d'.length ≤ d.length) domains domains' := by
    refine hlistings.imp fun d d' hlisting => ?_
    rcases hlisting with rfl | ⟨rfl, -⟩
    · exact Nat.le_refl _
    · exact length_eraseDups_le d
  cases hfound : strides domains with
  | ok found =>
    -- Without repetitions the listings are shorter, and so the products are no larger.
    have hword : ¬ TooWide domains' := fun hwide =>
      not_tooWide_of_strides hfound (hwide.of_shorter hshorter)
    obtain ⟨found', hfound'⟩ := exists_strides_iff.2 hword
    rw [hfound']
    refine .ok fun hpos => ?_
    rw [hsame hpos, hfound] at hfound'
    exact (Except.ok.inj hfound').symm
  | error e =>
    obtain ⟨hwide, rfl⟩ := strides_eq_error.1 hfound
    by_cases hranges : RangesOverRepeated table s.toSignature
    · exact .fails (.widens ⟨hranges, domains, hdomains, hwide⟩) _
    · rw [domains_eq_of_sameListing hlistings hranges, hfound]
      exact .same _

/-- Adding a symbol goes the same way, or it fails since the symbol ranges over repetitions. -/
theorem addSymbol_goesAs (h : SameNumbering numbering numbering') (s : Symbol) :
    GoesAs SameNumbering (ReportsRepeated table s) (addSymbol table numbering s)
      (addSymbol table.withObjectsOnce numbering' s) := by
  rw [addSymbol, addSymbol]
  refine (argumentDomains_goesAs table s _).bind fun domains domains' hdomains hlistings => ?_
  rw [argumentDomains_eq_ok] at hdomains
  dsimp only
  by_cases hrepeats : RepeatsTuples table s.toSignature
  · obtain ⟨e, hfails, hreports⟩ := registerAll_of_repeatsTuples numbering hdomains hrepeats
    rw [hfails]
    exact .fails hreports _
  · obtain ⟨htuples, hsame⟩ := tuples_eq_of_sameListing hdomains hlistings hrepeats
    rw [htuples]
    refine (registerAll_goesAs h.vars _ _).bind fun filled filled' _ hvars => ?_
    refine (strides_goesAs hdomains hlistings hsame).bind fun found found' _ hfound => ?_
    refine .ok ⟨hvars, List.rel_append h.blocks (.cons ⟨rfl, ?_, rfl, hfound⟩ .nil)⟩
    exact congrArg List.length h.vars

/-- Numbering goes the same way, or it fails since a fluent symbol ranges over repetitions. -/
theorem ofSymbols_goesAs (table : SymbolTable) (c : Classification) (order : SymbolOrder) :
    GoesAs SameNumbering
      (fun e => ∃ s ∈ table.symbols, c.isFluent s.name = true ∧ ReportsRepeated table s e)
      (ofSymbols table c order) (ofSymbols table.withObjectsOnce c order) := by
  refine GoesAs.foldlM (fun s hs numbering numbering' h => ?_) ⟨rfl, .nil⟩
  obtain ⟨hmem, hfluent⟩ := mem_orderedFluents.1 hs
  exact (addSymbol_goesAs h s).mono fun e he => ⟨s, hmem, hfluent, he⟩

/-- The numbering of a task neither repeats the tuples of a fluent symbol nor has a stride that is no
word. -/
theorem not_repeats_of_ofSymbols {c : Classification} {order : SymbolOrder}
    (h : ofSymbols table c order = .ok numbering) (hs : s ∈ table.symbols)
    (hfluent : c.isFluent s.name = true) :
    ¬ RepeatsTuples table s.toSignature ∧ ¬ WidensStrides table s.toSignature := by
  obtain ⟨parts, hparts, hvars⟩ := enumerates_of_ofSymbols h
  obtain ⟨vs, hvs, domains, hdomains, hfound, rfl⟩ :=
    exists_counterpart hparts.flip (mem_orderedFluents.2 ⟨hs, hfluent⟩)
  have hnodup := numbering.nodup
  rw [hvars] at hnodup
  refine ⟨not_repeatsTuples_of_nodup hdomains ((List.nodup_flatten.1 hnodup).1 _ hvs).of_map, ?_⟩
  rintro ⟨-, domains', hdomains', hwide⟩
  cases hdomains.unique hdomains'
  exact exists_strides_iff.1 hfound hwide

end VariableNumbering

/-! ### Initial states -/

namespace VariableNumbering.SameNumbering

variable {numbering numbering' : VariableNumbering}

/-- The same variables have handles, and the same symbols have blocks. -/
theorem sameVariables (h : SameNumbering numbering numbering') :
    SameVariables numbering numbering' := by
  refine ⟨by rw [h.vars], ?_⟩
  rw [map_eq_map (h.blocks.imp fun _ _ hblock => hblock.symbol.symm)]

end VariableNumbering.SameNumbering

namespace InitialState

variable {table : SymbolTable} {numbering numbering' : VariableNumbering}

/-- Elements make the same state, or the same error, if every object is listed once. -/
theorem ofElements_withObjectsOnce (h : VariableNumbering.SameNumbering numbering numbering')
    (elements : List InitialFact) :
    ofElements table.withObjectsOnce numbering' elements = ofElements table numbering elements := by
  have hvalue : valueOf table.withObjectsOnce = valueOf table := by
    funext s e
    cases e <;> simp only [valueOf, parseValue, SymbolTable.inDomain_withObjectsOnce]
  have hdomains : inDomains table.withObjectsOnce numbering = inDomains table numbering := by
    funext s v
    simp only [inDomains, SymbolTable.inDomain_withObjectsOnce]
  have hadd : add table.withObjectsOnce numbering = add table numbering := by
    funext state e
    rw [add, add, checkElement, checkElement, hvalue, hdomains]
    rfl
  rw [← ofElements_congr h.sameVariables, ofElements, ofElements, hadd]
  rfl

end InitialState

/-! ### Models -/

namespace GroundModel

/-- Models that are the same, except that the second one lists every object once. -/
structure SameModel (m m' : GroundModel) : Prop where
  domain : m'.domain = m.domain
  instanceName : m'.instanceName = m.instanceName
  symbols : m'.symbols = m.symbols.withObjectsOnce
  objects : m'.objects = m.objects
  classification : m'.classification = m.classification
  /-- Every variable has the same handle, and the layouts compute it the same way. -/
  numbering : VariableNumbering.SameNumbering m.numbering m'.numbering
  init : m'.init = m.init

/-- A declared symbol that some effect targets, and that repeats its tuples. -/
structure RepeatsVariables (t : Task) (s : Signature) : Prop where
  declared : s ∈ SymbolTable.allDeclarations t
  target : s.name ≠ equality ∧ IsTarget t.actions s.name
  repeats : VariableNumbering.RepeatsTuples ⟨[], t.typeDomains, t.objects⟩ s

/-- A declared symbol that some effect targets, and that has a stride that is no word. -/
structure WidensStrides (t : Task) (s : Signature) : Prop where
  declared : s ∈ SymbolTable.allDeclarations t
  target : s.name ≠ equality ∧ IsTarget t.actions s.name
  widens : VariableNumbering.WidensStrides ⟨[], t.typeDomains, t.objects⟩ s

/-- How declaring objects again bears on grounding. -/
structure ForgetsRepetitions (t : Task) (order : SymbolOrder) : Prop where
  /-- What is grounded with repetitions has the same model without them. -/
  same : ∀ m, build t order = .ok m →
    ∃ m', build t.withObjectsOnce order = .ok m' ∧ SameModel m m'
  /-- Grounding succeeds with repetitions exactly when it does without them and no symbol repeats
  its variables or gets a stride that is no word. -/
  succeeds : (∃ m, build t order = .ok m) ↔
    (∃ m', build t.withObjectsOnce order = .ok m') ∧
      ∀ s, ¬ RepeatsVariables t s ∧ ¬ WidensStrides t s
  /-- With repetitions, grounding fails with the same error, or because of such a symbol. -/
  fails : ∀ e, build t order = .error e → build t.withObjectsOnce order = .error e ∨
    (∃ s v, RepeatsVariables t s ∧ v.symbol = s.name ∧ e = .duplicateRegistration v) ∨
    ∃ s, WidensStrides t s ∧ e = .strideOverflow

variable {t : Task} {table : SymbolTable} {c : Classification}

/-- The declared symbols that some effect targets are the fluent symbols, and what depends on
listings only can be said of them before they are declared. -/
theorem exists_fluent_iff (htable : SymbolTable.ofTask t = .ok table)
    (hc : Classification.ofActions t.actions table = .ok c)
    {P : SymbolTable → Signature → Prop} {s : Signature}
    (hP : ∀ symbols, P ⟨symbols, t.typeDomains, t.objects⟩ s ↔ P ⟨[], t.typeDomains, t.objects⟩ s) :
    (s ∈ SymbolTable.allDeclarations t ∧ (s.name ≠ equality ∧ IsTarget t.actions s.name) ∧
        P ⟨[], t.typeDomains, t.objects⟩ s) ↔
      ∃ symbol ∈ table.symbols, symbol.toSignature = s ∧ c.isFluent symbol.name = true ∧
        P table symbol.toSignature := by
  obtain ⟨hdeclares, htypes, hobjects⟩ := SymbolTable.declares_of_ofTask htable
  have hlistings : table = ⟨table.symbols, t.typeDomains, t.objects⟩ := by rw [← htypes, ← hobjects]
  rw [← hP table.symbols, ← hlistings, ← hdeclares.signatures, ← Classification.isFluent_iff hc,
    List.mem_map]
  constructor
  · rintro ⟨⟨symbol, hsymbol, rfl⟩, hfluent, hholds⟩
    exact ⟨symbol, hsymbol, rfl, hfluent, hholds⟩
  · rintro ⟨symbol, hsymbol, rfl, hfluent, hholds⟩
    exact ⟨⟨symbol, hsymbol, rfl⟩, hfluent, hholds⟩

/-- The symbols that repeat their variables are the fluent symbols that repeat their tuples. -/
theorem repeatsVariables_iff (htable : SymbolTable.ofTask t = .ok table)
    (hc : Classification.ofActions t.actions table = .ok c) (s : Signature) :
    RepeatsVariables t s ↔ ∃ symbol ∈ table.symbols, symbol.toSignature = s ∧
      c.isFluent symbol.name = true ∧ VariableNumbering.RepeatsTuples table symbol.toSignature := by
  rw [← exists_fluent_iff htable hc fun symbols =>
    ⟨fun h => ⟨⟨h.implicit, h.repeated, h.ranges⟩, h.filled⟩,
      fun h => ⟨⟨h.implicit, h.repeated, h.ranges⟩, h.filled⟩⟩]
  exact ⟨fun h => ⟨h.declared, h.target, h.repeats⟩, fun h => ⟨h.1, h.2.1, h.2.2⟩⟩

/-- The symbols with a stride that is no word are those among the fluent symbols. -/
theorem widensStrides_iff (htable : SymbolTable.ofTask t = .ok table)
    (hc : Classification.ofActions t.actions table = .ok c) (s : Signature) :
    WidensStrides t s ↔ ∃ symbol ∈ table.symbols, symbol.toSignature = s ∧
      c.isFluent symbol.name = true ∧ VariableNumbering.WidensStrides table symbol.toSignature := by
  rw [← exists_fluent_iff htable hc fun symbols =>
    ⟨fun h => ⟨⟨h.implicit, h.repeated, h.ranges⟩, h.wide⟩,
      fun h => ⟨⟨h.implicit, h.repeated, h.ranges⟩, h.wide⟩⟩]
  exact ⟨fun h => ⟨h.declared, h.target, h.widens⟩, fun h => ⟨h.1, h.2.1, h.2.2⟩⟩

/-- Grounding goes the same way if every object is declared once, or it fails since a symbol ranges
over repetitions. -/
theorem build_goesAs (t : Task) (order : SymbolOrder) :
    GoesAs SameModel
      (fun e => (∃ s v, RepeatsVariables t s ∧ v.symbol = s.name ∧ e = .duplicateRegistration v) ∨
        ∃ s, WidensStrides t s ∧ e = .strideOverflow)
      (build t order) (build t.withObjectsOnce order) := by
  have hobjects : ObjectNumbering.ofObjects t.withObjectsOnce.objects
      = ObjectNumbering.ofObjects t.objects := ObjectNumbering.ofObjects_eraseDups t.objects
  have hundeclared : undeclaredObject? t.withObjectsOnce = undeclaredObject? t := rfl
  rw [build, build, SymbolTable.ofTask_withObjectsOnce, hobjects, hundeclared]
  cases htable : SymbolTable.ofTask t with
  | error e => exact .same e
  | ok table =>
    dsimp only [Except.map, bind, Except.bind]
    cases undeclaredObject? t (ObjectNumbering.ofObjects t.objects) with
    | some e => exact .same e
    | none =>
      have hclassify : Classification.ofActions t.withObjectsOnce.actions table.withObjectsOnce
          = Classification.ofActions t.actions table := rfl
      rw [hclassify]
      cases hc : Classification.ofActions t.actions table with
      | error e => exact .same e
      | ok c =>
        have hnumbering := VariableNumbering.ofSymbols_goesAs table c order
        refine (hnumbering.mono ?_).bind fun numbering numbering' _ hsame => ?_
        · rintro e ⟨s, hs, hfluent, (⟨hrepeats, hv⟩ | hwidens)⟩
          · exact .inl ⟨s.toSignature, _, (repeatsVariables_iff htable hc _).2
              ⟨s, hs, rfl, hfluent, hrepeats⟩, hv, rfl⟩
          · exact .inr ⟨s.toSignature, (widensStrides_iff htable hc _).2
              ⟨s, hs, rfl, hfluent, hwidens⟩, rfl⟩
        rw [show t.withObjectsOnce.init = t.init from rfl,
          InitialState.ofElements_withObjectsOnce hsame]
        cases InitialState.ofElements table numbering t.init with
        | error e => exact .same e
        | ok init => exact .ok ⟨rfl, rfl, rfl, rfl, rfl, hsame, rfl⟩

/-- A task that is grounded has no symbol that repeats its variables or has a stride that is no
word. -/
theorem not_repeatsVariables_of_build {order : SymbolOrder} {m : GroundModel}
    (h : build t order = .ok m) (s : Signature) : ¬ RepeatsVariables t s ∧ ¬ WidensStrides t s := by
  obtain ⟨-, table, c, numbering, init, htable, hc, hnumbering, -, -⟩ := build_eq_ok.1 h
  rw [repeatsVariables_iff htable hc, widensStrides_iff htable hc]
  constructor
  · rintro ⟨symbol, hsymbol, rfl, hfluent, htuples⟩
    exact (VariableNumbering.not_repeats_of_ofSymbols hnumbering hsymbol hfluent).1 htuples
  · rintro ⟨symbol, hsymbol, rfl, hfluent, hwidens⟩
    exact (VariableNumbering.not_repeats_of_ofSymbols hnumbering hsymbol hfluent).2 hwidens

/-- Declaring objects again changes nothing but strides that lead to no handle, unless grounding
fails because of it. -/
theorem objects_redeclared (t : Task) (order : SymbolOrder) : ForgetsRepetitions t order := by
  have hgoes := build_goesAs t order
  refine ⟨fun m hm => (hm ▸ hgoes).of_ok, ⟨?_, ?_⟩, fun e he => (he ▸ hgoes).of_error⟩
  · rintro ⟨m, hm⟩
    obtain ⟨m', hm', -⟩ := (hm ▸ hgoes).of_ok
    exact ⟨⟨m', hm'⟩, not_repeatsVariables_of_build hm⟩
  · rintro ⟨⟨m', hm'⟩, hnone⟩
    cases hm : build t order with
    | ok m => exact ⟨m, rfl⟩
    | error e =>
      rw [hm, hm'] at hgoes
      rcases hgoes.of_error with herror | ⟨s, -, hrepeats, -⟩ | ⟨s, hwidens, -⟩
      · cases herror
      · exact absurd hrepeats (hnone s).1
      · exact absurd hwidens (hnone s).2

/-- Cars and places have listings of their own, so a car can be declared again. -/
theorem objects_redeclared_parking :
    let t := { VariableNumbering.parkingTask with objects := ["a", "b", "a", "x", "y", "z"] }
    ∃ m m', build t .declaration = .ok m ∧ build t.withObjectsOnce .declaration = .ok m' ∧
      SameModel m m' ∧ m'.symbols.objects = ["a", "b", "x", "y", "z"] := by
  intro t
  obtain ⟨m, hm, hobjects⟩ : ∃ m, build t .declaration = .ok m ∧
      m.symbols.withObjectsOnce.objects = ["a", "b", "x", "y", "z"] := ⟨_, rfl, rfl⟩
  obtain ⟨m', hm', hsame⟩ := (objects_redeclared t .declaration).same m hm
  exact ⟨m, m', hm, hm', hsame, by rw [hsame.symbols, hobjects]⟩

/-- A task in which `a` is declared twice, and an action that says where `a` is. -/
def placingTask : Task where
  domain := "placing"
  instanceName := "one"
  typeDomains := []
  objects := ["a", "b", "a"]
  predicates := [⟨"at", [objectType]⟩]
  functions := []
  actions := [⟨"go", [], .true, [⟨"at", [.object "a"], none, false, none⟩]⟩]
  init := []
  constraints := []
  goal := none

/-- The variable `at(a)` is registered twice, but grounding succeeds if `a` is declared once. -/
theorem object_declared_twice :
    build placingTask .declaration = .error (.duplicateRegistration ⟨"at", ["a"]⟩) ∧
      ∃ m, build placingTask.withObjectsOnce .declaration = .ok m ∧
        m.numbering.vars = [⟨"at", ["a"]⟩, ⟨"at", ["b"]⟩] :=
  ⟨rfl, _, rfl, rfl⟩

/-- Next to an empty type, a repetition shows in the strides of a symbol without variables. -/
example :
    let t := { placingTask with
      typeDomains := [⟨"nowhere", []⟩], predicates := [⟨"at", ["nowhere", objectType]⟩] }
    (build t .declaration).map (fun m => m.numbering.blocks) = .ok [⟨"at", 0, [3, 1], 0⟩] ∧
      (build t.withObjectsOnce .declaration).map (fun m => m.numbering.blocks)
        = .ok [⟨"at", 0, [2, 1], 0⟩] :=
  ⟨rfl, rfl⟩

end GroundModel

end Grounder
