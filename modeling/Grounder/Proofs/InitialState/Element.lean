import Grounder.InitialState
import Grounder.Proofs.VariableNumbering

/-!
# `Grounder.Proofs.InitialState.Element`: which elements are valid on their own

Validity of an element is said here in terms of the table and of the classification alone. The
compiler checks the arguments of a symbol with handles through the numbering, and those of any
other symbol against the listings; `inDomains_iff` says that both mean the same. So an element
passes its check exactly when it is valid (`checkElement_of_valid`), and otherwise it is refused
with the first fault that applies (`checkElement_of_not_valid`).
-/

set_option autoImplicit false

namespace Grounder

namespace InitialState

open VariableNumbering

/-- Whether an argument may stand at a parameter of a symbol. It has to be listed under the type,
but for the numeric types of a static symbol, where any integer may stand. -/
def ArgumentFits (table : SymbolTable) (c : Classification) (s : Symbol) (type arg : String) :
    Prop :=
  if isNumericType type = true ∧ c.isFluent s.name = false then (Text.integer? arg).isSome = true
  else ∃ listing, table.domain? type = some listing ∧ arg ∈ listing

/-- Whether an element gives a symbol what it takes: a predicate a positive atom, and a function a
value of its codomain. -/
def ValueFits (table : SymbolTable) (s : Symbol) : InitialFact → Prop
  | .atom _ _ negated => s.codomain = none ∧ negated = false
  | .assign _ _ raw =>
    ∃ codomain, s.codomain = some codomain ∧
      if isNumericType codomain then (Text.integer? (Text.trim raw)).isSome = true
      else ∃ listing, table.domain? codomain = some listing ∧ Text.trim raw ∈ listing

/-- An element that is valid on its own, and its symbol. -/
structure ValidFor (table : SymbolTable) (c : Classification) (e : InitialFact) (s : Symbol) :
    Prop where
  declared : table.get? e.symbol = some s
  ne_equality : s.name ≠ equality
  arity : e.args.length = s.arity
  value : ValueFits table s e
  args : List.Forall₂ (ArgumentFits table c s) s.params e.args

/-- An element that is valid on its own. -/
def Valid (table : SymbolTable) (c : Classification) (e : InitialFact) : Prop :=
  ∃ s, ValidFor table c e s

/-- What is wrong with the value that an element gives a symbol. -/
inductive ValueFault (table : SymbolTable) (s : Symbol) : InitialFact → InitFault → Prop where
  | functionAsAtom {symbol : String} {args : List String} {negated : Bool} :
    s.codomain ≠ none → ValueFault table s (.atom symbol args negated) .functionAsAtom
  | negatedAtom {symbol : String} {args : List String} :
    s.codomain = none → ValueFault table s (.atom symbol args true) .negatedAtom
  | predicateWithValue {symbol : String} {args : List String} {raw : String} :
    s.codomain = none → ValueFault table s (.assign symbol args raw) .predicateWithValue
  | notNumeric {symbol : String} {args : List String} {raw codomain : String} :
    s.codomain = some codomain → isNumericType codomain = true →
    Text.integer? (Text.trim raw) = none →
    ValueFault table s (.assign symbol args raw) (.notNumeric raw codomain)
  | notInCodomain {symbol : String} {args : List String} {raw codomain : String} :
    s.codomain = some codomain → isNumericType codomain = false →
    (∀ listing, table.domain? codomain = some listing → Text.trim raw ∉ listing) →
    ValueFault table s (.assign symbol args raw) (.notInCodomain raw codomain)

/-- The error with which an element is refused on its own: that of the first check it fails. -/
inductive Refuses (table : SymbolTable) (c : Classification) (e : InitialFact) :
    GroundingError → Prop where
  | undeclared :
    table.get? e.symbol = none →
    Refuses table c e (.unknownSymbol e.symbol ("initial element '" ++ e.text ++ "'"))
  | equality {s : Symbol} :
    table.get? e.symbol = some s → s.name = Grounder.equality →
    Refuses table c e (.invalidInit e.text .equality)
  | argumentCount {s : Symbol} :
    table.get? e.symbol = some s → s.name ≠ Grounder.equality → e.args.length ≠ s.arity →
    Refuses table c e (.invalidInit e.text (.argumentCount s.arity e.args.length))
  | value {s : Symbol} {fault : InitFault} :
    table.get? e.symbol = some s → s.name ≠ Grounder.equality → e.args.length = s.arity →
    ValueFault table s e fault → Refuses table c e (.invalidInit e.text fault)
  | outOfDomain {s : Symbol} :
    table.get? e.symbol = some s → s.name ≠ Grounder.equality → e.args.length = s.arity →
    ValueFits table s e → ¬ List.Forall₂ (ArgumentFits table c s) s.params e.args →
    Refuses table c e (.outOfDomain ⟨e.symbol, e.args⟩)

/-- The value that a valid element records for its symbol. -/
def factValue (s : Symbol) : InitialFact → FactValue
  | .atom _ _ _ => .bool true
  | .assign _ _ raw =>
    if s.codomain.any isNumericType then .int ((Text.integer? (Text.trim raw)).getD 0)
    else .object (Text.trim raw)

/-! ### Values -/

/-- A listed name is in the domain of a type without numbers. -/
theorem inDomain_iff {table : SymbolTable} {type name : String}
    (hnumeric : isNumericType type = false) :
    inDomain table type name = true ↔
      ∃ listing, table.domain? type = some listing ∧ name ∈ listing := by
  rw [inDomain, hnumeric, if_neg Bool.false_ne_true]
  cases table.domain? type <;> simp

/-- A value that fits is taken over. -/
theorem valueOf_of_fits {table : SymbolTable} {s : Symbol} {e : InitialFact}
    (h : ValueFits table s e) :
    ∃ value, valueOf table s e = .ok value ∧ value.isNone = s.isPredicate ∧
      value.getD (.bool true) = factValue s e := by
  cases e with
  | atom symbol args negated =>
    obtain ⟨hcodomain, rfl⟩ := h
    have hpredicate : s.isPredicate = true := by rw [Signature.isPredicate, hcodomain]; rfl
    refine ⟨none, ?_, hpredicate.symm, rfl⟩
    rw [valueOf, hpredicate]
    rfl
  | assign symbol args raw =>
    obtain ⟨codomain, hcodomain, hraw⟩ := h
    -- A numeric codomain takes integers, any other what it lists.
    have hpredicate : s.isPredicate = false := by rw [Signature.isPredicate, hcodomain]; rfl
    cases hnumeric : isNumericType codomain with
    | true =>
      rw [hnumeric, if_pos rfl] at hraw
      obtain ⟨n, hn⟩ := Option.isSome_iff_exists.1 hraw
      refine ⟨some (.int n), ?_, hpredicate.symm, ?_⟩
      · rw [valueOf, hcodomain]
        show (parseValue table codomain raw).map some = _
        rw [parseValue]
        simp only [hnumeric, if_true, hn]
        rfl
      · rw [factValue, hcodomain, Option.any_some, hnumeric, if_pos rfl, hn]
        rfl
    | false =>
      rw [hnumeric, if_neg Bool.false_ne_true, ← inDomain_iff hnumeric] at hraw
      refine ⟨some (.object (Text.trim raw)), ?_, hpredicate.symm, ?_⟩
      · rw [valueOf, hcodomain]
        show (parseValue table codomain raw).map some = _
        rw [parseValue]
        simp only [hnumeric, Bool.false_eq_true, if_false, hraw, if_true]
        rfl
      · rw [factValue, hcodomain, Option.any_some, hnumeric]
        rfl

/-- A value that does not fit is refused with its fault. -/
theorem valueOf_of_not_fits {table : SymbolTable} {s : Symbol} {e : InitialFact}
    (h : ¬ ValueFits table s e) :
    ∃ fault, valueOf table s e = .error fault ∧ ValueFault table s e fault := by
  cases e with
  | atom symbol args negated =>
    cases hcodomain : s.codomain with
    | some codomain =>
      refine ⟨.functionAsAtom, ?_, .functionAsAtom (by rw [hcodomain]; simp)⟩
      rw [valueOf, Signature.isPredicate, hcodomain]
      rfl
    | none =>
      cases negated with
      | false => exact absurd ⟨hcodomain, rfl⟩ h
      | true =>
        refine ⟨.negatedAtom, ?_, .negatedAtom hcodomain⟩
        rw [valueOf, Signature.isPredicate, hcodomain]
        rfl
  | assign symbol args raw =>
    cases hcodomain : s.codomain with
    | none =>
      refine ⟨.predicateWithValue, ?_, .predicateWithValue hcodomain⟩
      rw [valueOf, hcodomain]
    | some codomain =>
      have hvalue : valueOf table s (.assign symbol args raw)
          = (parseValue table codomain raw).map some := by
        rw [valueOf, hcodomain]
      cases hnumeric : isNumericType codomain with
      | true =>
        have hn : Text.integer? (Text.trim raw) = none := by
          refine Option.not_isSome_iff_eq_none.1 fun hsome => h ⟨codomain, hcodomain, ?_⟩
          rw [hnumeric, if_pos rfl]
          exact hsome
        refine ⟨.notNumeric raw codomain, ?_, .notNumeric hcodomain hnumeric hn⟩
        rw [hvalue, parseValue]
        simp only [hnumeric, if_true, hn]
        rfl
      | false =>
        have hout : ¬ ∃ listing, table.domain? codomain = some listing ∧
            Text.trim raw ∈ listing := by
          intro hin
          exact h ⟨codomain, hcodomain, by rw [hnumeric, if_neg Bool.false_ne_true]; exact hin⟩
        refine ⟨.notInCodomain raw codomain, ?_, .notInCodomain hcodomain hnumeric
          fun listing hlisting hmem => hout ⟨listing, hlisting, hmem⟩⟩
        rw [← inDomain_iff hnumeric] at hout
        rw [hvalue, parseValue]
        simp only [hnumeric, Bool.false_eq_true, if_false, hout]
        rfl

/-! ### Arguments -/

section Numbering

variable {table : SymbolTable} {c : Classification} {order : SymbolOrder}
  {numbering : VariableNumbering}

/-- Listings that belong to types, and members of the listings: together, each argument is listed
under its type. -/
theorem forall₂_listed {types : List String} {domains : List (List String)} {args : List String}
    (h : List.Forall₂ (fun type listing => table.domain? type = some listing) types domains) :
    List.Forall₂ (fun d object => object ∈ d) domains args ↔
      List.Forall₂ (fun type arg => ∃ listing, table.domain? type = some listing ∧ arg ∈ listing)
        types args := by
  induction h generalizing args with
  | nil =>
    rw [List.forall₂_nil_left_iff, List.forall₂_nil_left_iff]
  | @cons type listing types domains hlisting _ ih =>
    cases args with
    | nil => simp
    | cons arg args =>
      rw [List.forall₂_cons, List.forall₂_cons, ih, hlisting]
      simp

/-- The arguments of a fluent symbol fit exactly when the variable has a handle. -/
theorem handle?_isSome_iff (hnodup : table.names.Nodup)
    (h : ofSymbols table c order = .ok numbering) {s : Symbol} (hs : s ∈ table.symbols)
    (hfluent : c.isFluent s.name = true) (args : List String) :
    (numbering.handle? ⟨s.name, args⟩).isSome = true ↔
      List.Forall₂ (ArgumentFits table c s) s.params args := by
  have hfits : ArgumentFits table c s
      = fun type arg => ∃ listing, table.domain? type = some listing ∧ arg ∈ listing := by
    funext type arg
    rw [ArgumentFits, hfluent, if_neg (by simp)]
  obtain ⟨block, domains, -, hblock⟩ := exists_block_of_isFluent hnodup h hs hfluent
  rw [hfits, ← forall₂_listed hblock.hasDomains, ← Odometer.exists_tuple?]
  constructor
  · intro hsome
    obtain ⟨handle, hhandle⟩ := Option.isSome_iff_exists.1 hsome
    obtain ⟨s', hs', -, hname, domains', positions, hdomains', hpositions⟩ :=
      exists_positions_of_handle? h hhandle
    -- The symbol of the variable is this one, since names are unique.
    have heq : s = s' := List.inj_on_of_nodup_map hnodup hs hs' hname
    subst heq
    rw [hblock.hasDomains.unique hdomains']
    exact ⟨positions, hpositions⟩
  · rintro ⟨positions, hpositions⟩
    rw [hblock.handle? hpositions]
    rfl

/-- A symbol has a block exactly when it is fluent. -/
theorem block?_isSome_iff (hnodup : table.names.Nodup)
    (h : ofSymbols table c order = .ok numbering) {s : Symbol} (hs : s ∈ table.symbols) :
    (numbering.block? s.name).isSome = true ↔ c.isFluent s.name = true := by
  constructor
  · intro hsome
    obtain ⟨block, hblock⟩ := Option.isSome_iff_exists.1 hsome
    have hmem : block.symbol ∈ numbering.blocks.map (·.symbol) :=
      List.mem_map.2 ⟨block, List.mem_of_find?_eq_some hblock, rfl⟩
    rw [map_symbol_of_describes (ofSymbols_describes h).1] at hmem
    obtain ⟨s', hs', hname⟩ := List.mem_map.1 hmem
    have hsymbol : block.symbol = s.name := by simpa using List.find?_some hblock
    rw [← hsymbol, ← hname]
    exact (mem_orderedFluents.1 hs').2
  · intro hfluent
    obtain ⟨block, -, hblock, -⟩ := exists_block_of_isFluent hnodup h hs hfluent
    rw [hblock]
    rfl

/-- The arguments of a static symbol fit exactly when each is in the domain of its type. -/
theorem zip_inDomain_iff {s : Symbol} (hstatic : c.isFluent s.name = false) {args : List String}
    (harity : args.length = s.arity) :
    ((s.params.zip args).all fun (type, arg) => inDomain table type arg) = true ↔
      List.Forall₂ (ArgumentFits table c s) s.params args := by
  have hfits : ∀ type arg, inDomain table type arg = true ↔ ArgumentFits table c s type arg := by
    intro type arg
    rw [ArgumentFits, hstatic]
    cases hnumeric : isNumericType type with
    | true => simp [inDomain, hnumeric]
    | false => simp [inDomain_iff hnumeric]
  -- Types and arguments are as many, so pairing them loses none.
  rw [Signature.arity] at harity
  generalize s.params = types at harity ⊢
  induction types generalizing args with
  | nil =>
    rw [List.length_eq_zero_iff.1 harity]
    simp
  | cons type types ih =>
    cases args with
    | nil => cases harity
    | cons arg args =>
      rw [List.zip_cons_cons, List.all_cons, Bool.and_eq_true, hfits, List.forall₂_cons]
      exact and_congr_right fun _ => ih (Nat.succ.inj harity)

/-- Arguments are checked through the numbering or against the listings. Both ways decide whether
they fit. -/
theorem inDomains_iff (hnodup : table.names.Nodup) (h : ofSymbols table c order = .ok numbering)
    {s : Symbol} (hs : s ∈ table.symbols) {args : List String} (harity : args.length = s.arity) :
    inDomains table numbering s ⟨s.name, args⟩ = true ↔
      List.Forall₂ (ArgumentFits table c s) s.params args := by
  rw [inDomains]
  by_cases hfluent : c.isFluent s.name = true
  · rw [if_pos ((block?_isSome_iff hnodup h hs).2 hfluent)]
    exact handle?_isSome_iff hnodup h hs hfluent args
  · rw [if_neg (mt (block?_isSome_iff hnodup h hs).1 hfluent)]
    exact zip_inDomain_iff (by simpa using hfluent) harity

/-! ### Elements -/

/-- The checks of an element whose symbol is declared, one after another. -/
theorem checkElement_eq {e : InitialFact} {s : Symbol} (hget : table.get? e.symbol = some s) :
    checkElement table numbering e =
      if s.name = equality then .error (.invalidInit e.text .equality)
      else if e.args.length ≠ s.arity then
        .error (.invalidInit e.text (.argumentCount s.arity e.args.length))
      else
        match valueOf table s e with
        | .error fault => .error (.invalidInit e.text fault)
        | .ok value =>
          if inDomains table numbering s ⟨s.name, e.args⟩ then .ok (⟨s.name, e.args⟩, value)
          else .error (.outOfDomain ⟨s.name, e.args⟩) := by
  rw [checkElement, SymbolTable.require, hget]
  show (if s.name = equality then _ else _) = _
  by_cases hequality : s.name = equality
  · rw [if_pos hequality, if_pos hequality]
    rfl
  · rw [if_neg hequality, if_neg hequality]
    by_cases harity : e.args.length ≠ s.arity
    · rw [if_pos harity, if_pos harity]
      rfl
    · rw [if_neg harity, if_neg harity]
      cases valueOf table s e with
      | error fault => rfl
      | ok value => rfl

/-- What an element has to say of its symbol to pass its own check. -/
theorem checkElement_eq_ok (hnodup : table.names.Nodup) {e : InitialFact} {v : StateVariable}
    {value : Option FactValue} :
    checkElement table numbering e = .ok (v, value) ↔
      ∃ s, table.get? e.symbol = some s ∧ s.name ≠ equality ∧ e.args.length = s.arity ∧
        valueOf table s e = .ok value ∧
        inDomains table numbering s ⟨e.symbol, e.args⟩ = true ∧ v = ⟨e.symbol, e.args⟩ := by
  cases hget : table.get? e.symbol with
  | none =>
    rw [checkElement, SymbolTable.require, hget]
    simp only [reduceCtorEq, false_and, exists_false, iff_false]
    intro h
    cases h
  | some s =>
    obtain ⟨-, hname⟩ := (SymbolTable.get?_eq_some hnodup).1 hget
    rw [checkElement_eq hget, hname]
    simp only [Option.some.injEq, exists_eq_left', hname]
    by_cases hequality : e.symbol = equality
    · simp [hequality]
    by_cases harity : e.args.length = s.arity
    · rw [if_neg hequality, if_neg (not_not_intro harity)]
      cases valueOf table s e with
      | error fault => simp
      | ok value' =>
        by_cases hdomains : inDomains table numbering s ⟨e.symbol, e.args⟩ = true
        · simp [hequality, harity, hdomains, and_comm, eq_comm]
        · simp [hdomains]
    · simp [hequality, harity]

/-- A value that is taken over is one for a function, and none for a predicate. -/
theorem isNone_of_valueOf {s : Symbol} {e : InitialFact} {value : Option FactValue}
    (h : valueOf table s e = .ok value) : value.isNone = s.isPredicate := by
  by_cases hfits : ValueFits table s e
  · obtain ⟨value', hvalue', hkind, -⟩ := valueOf_of_fits hfits
    rw [h] at hvalue'
    cases hvalue'
    exact hkind
  · obtain ⟨fault, hfault, -⟩ := valueOf_of_not_fits hfits
    rw [h] at hfault
    cases hfault

/-- A valid element says what its variable and its value are. -/
theorem checkElement_of_valid (hnodup : table.names.Nodup)
    (h : ofSymbols table c order = .ok numbering) {e : InitialFact} {s : Symbol}
    (hvalid : ValidFor table c e s) :
    ∃ value, checkElement table numbering e = .ok (⟨s.name, e.args⟩, value) ∧
      value.isNone = s.isPredicate ∧ value.getD (.bool true) = factValue s e := by
  obtain ⟨hs, -⟩ := (SymbolTable.get?_eq_some hnodup).1 hvalid.declared
  obtain ⟨value, hvalue, hkind, hfact⟩ := valueOf_of_fits hvalid.value
  refine ⟨value, ?_, hkind, hfact⟩
  rw [checkElement_eq hvalid.declared, if_neg hvalid.ne_equality,
    if_neg (not_not_intro hvalid.arity), hvalue]
  exact if_pos ((inDomains_iff hnodup h hs hvalid.arity).2 hvalid.args)

/-- An element that is not valid is refused with the first fault that applies. -/
theorem checkElement_of_not_valid (hnodup : table.names.Nodup)
    (h : ofSymbols table c order = .ok numbering) {e : InitialFact} (hvalid : ¬ Valid table c e) :
    ∃ error, checkElement table numbering e = .error error ∧ Refuses table c e error := by
  -- The checks in their order; the first that fails decides the error.
  cases hget : table.get? e.symbol with
  | none =>
    refine ⟨_, ?_, .undeclared hget⟩
    rw [checkElement, SymbolTable.require, hget]
    rfl
  | some s =>
    obtain ⟨hs, hname⟩ := (SymbolTable.get?_eq_some hnodup).1 hget
    rw [checkElement_eq hget]
    by_cases hequality : s.name = equality
    · rw [if_pos hequality]
      exact ⟨_, rfl, .equality hget hequality⟩
    rw [if_neg hequality]
    by_cases harity : e.args.length = s.arity
    · rw [if_neg (not_not_intro harity)]
      by_cases hfits : ValueFits table s e
      · obtain ⟨value, hvalue, -⟩ := valueOf_of_fits hfits
        have hargs : ¬ List.Forall₂ (ArgumentFits table c s) s.params e.args :=
          fun hargs => hvalid ⟨s, hget, hequality, harity, hfits, hargs⟩
        rw [hvalue]
        refine ⟨_, if_neg (mt (inDomains_iff hnodup h hs harity).1 hargs), ?_⟩
        rw [hname]
        exact .outOfDomain hget hequality harity hfits hargs
      · obtain ⟨fault, hfault, hvalue⟩ := valueOf_of_not_fits hfits
        rw [hfault]
        exact ⟨_, rfl, .value hget hequality harity hvalue⟩
    · rw [if_pos harity]
      exact ⟨_, rfl, .argumentCount hget hequality harity⟩

end Numbering

end InitialState

end Grounder
