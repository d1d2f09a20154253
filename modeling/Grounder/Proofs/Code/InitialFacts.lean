import Grounder.Proofs.Code.InitListing
import Grounder.Proofs.Code.StaticListing
import Grounder.Proofs.Support.Lists

/-!
# `Grounder.Proofs.Code.InitialFacts`: every initial fact has a line

A fact about a fluent symbol goes into the listing of the initial values, and one about a static
symbol into the file of the symbol. The lines of the former are in the order of handles
(`initPairs_ascend`). What they say is said here of an element of the task (`initialPair?`), and
there is one for each element about a fluent symbol (`initPairs_perm`). There is a line in the file
of a static symbol for each element about it (`staticLines_perm`), and no element is left over
(`length_initPairs_add`).
-/

set_option autoImplicit false

namespace Grounder

namespace GroundModel

open Proofs.Support InitialState

variable {t : Task} {order : SymbolOrder} {m : GroundModel}

/-- What a valid element says. -/
theorem factOf_of_valid {e : InitialFact} {s : Symbol}
    (hvalid : ValidFor m.symbols m.classification e s) :
    factOf m.symbols e = (e.stateVariable, factValue s e) := by
  rw [factOf, hvalid.declared, Option.map_some, Option.getD_some]

/-! ### Fluent symbols -/

/-- The text of the value of an element in the listing of the initial values: that of the truth
value for an atom, the integer at a numeric codomain, and the id of the object at any other one. -/
def initialCode? (m : GroundModel) : InitialFact → Option String
  | .atom _ _ _ => some (boolToken true)
  | .assign symbol _ raw => do
    let s ← m.symbols.get? symbol
    let codomain ← s.codomain
    if isNumericType codomain then
      (Text.integer? (Text.trim raw)).map fun n => toString n.toInt
    else (m.objects.id? (Text.trim raw)).map toString

/-- The handle of the variable of an element, with the text of its value. -/
def initialPair? (m : GroundModel) (e : InitialFact) : Option (Nat × String) := do
  let handle ← m.numbering.handle? e.stateVariable
  let code ← m.initialCode? e
  return (handle, code)

/-- The value of a valid element is listed by its text. -/
theorem initialCode?_eq (h : build t order = .ok m) {e : InitialFact} {s : Symbol}
    (hvalid : ValidFor m.symbols m.classification e s) :
    m.initialCode? e = some (m.initCode (factValue s e)) := by
  obtain ⟨hdeclared, -, -, hvalue, -⟩ := hvalid
  cases e with
  | atom symbol args negated => rfl
  | assign symbol args raw =>
    obtain ⟨codomain, hcodomain, hraw⟩ := hvalue
    have hdeclared : m.symbols.get? symbol = some s := hdeclared
    rw [factValue, hcodomain, Option.any_some, initialCode?, hdeclared]
    simp only [Option.bind_eq_bind, Option.bind_some, hcodomain]
    by_cases hnumeric : isNumericType codomain = true
    · rw [if_pos hnumeric] at hraw
      obtain ⟨n, hn⟩ := Option.isSome_iff_exists.1 hraw
      rw [if_pos hnumeric, if_pos hnumeric, hn]
      rfl
    · rw [if_neg hnumeric] at hraw
      obtain ⟨listing, hlisting, hmem⟩ := hraw
      obtain ⟨id, hid⟩ := exists_id?_of_listed h hlisting hmem
      rw [if_neg hnumeric, if_neg hnumeric, hid, initCode, valueCode, nameCode, hid]
      rfl

/-- The text of a value holds no line end. -/
theorem not_mem_initialCode? {e : InitialFact} {code : String} (h : m.initialCode? e = some code)
    {c : Char} (hc : c = '\n' ∨ c = '\r') : c ∉ code.toList := by
  have hdigit : c.isDigit = false := by rcases hc with rfl | rfl <;> decide
  cases e with
  | atom symbol args negated =>
    cases h
    rcases hc with rfl | rfl <;> decide
  | assign symbol args raw =>
    simp only [initialCode?, Option.bind_eq_bind, Option.bind_eq_some_iff] at h
    obtain ⟨s, -, codomain, -, h⟩ := h
    split at h
    · obtain ⟨n, -, rfl⟩ := Option.map_eq_some_iff.1 h
      exact not_mem_toString_int n.toInt hdigit (by rcases hc with rfl | rfl <;> decide)
    · obtain ⟨id, -, rfl⟩ := Option.map_eq_some_iff.1 h
      exact not_mem_toString id hdigit

/-- A variable of a symbol that is not fluent has no handle. -/
theorem handle?_eq_none (h : build t order = .ok m) {v : StateVariable}
    (hfluent : m.classification.isFluent v.symbol = false) : m.numbering.handle? v = none := by
  obtain ⟨-, table, classification, numbering, init, -, -, hnumbering, -, rfl⟩ := build_eq_ok.1 h
  rw [Option.eq_none_iff_forall_ne_some]
  intro handle hhandle
  obtain ⟨s, -, hs, hname, -⟩ := VariableNumbering.exists_positions_of_handle? hnumbering hhandle
  rw [hname] at hfluent
  rw [hfluent] at hs
  cases hs

/-- The variable of a valid element about a fluent symbol has a handle. -/
theorem exists_handle? (h : build t order = .ok m) {e : InitialFact} {s : Symbol}
    (hvalid : ValidFor m.symbols m.classification e s)
    (hfluent : m.classification.isFluent e.symbol = true) :
    ∃ handle, m.numbering.handle? e.stateVariable = some handle := by
  have hnodup := nodup_names h
  obtain ⟨hs, hname⟩ := (SymbolTable.get?_eq_some hnodup).1 hvalid.declared
  rw [← hname] at hfluent
  obtain ⟨-, table, classification, numbering, init, -, -, hnumbering, -, rfl⟩ := build_eq_ok.1 h
  have hsome := (handle?_isSome_iff hnodup hnumbering hs hfluent e.args).2 hvalid.args
  rw [hname] at hsome
  exact Option.isSome_iff_exists.1 hsome

/-- What is listed of valid elements: the handles and texts of those about fluent symbols. -/
theorem map_filterMap_factOf (h : build t order = .ok m) {elements : List InitialFact}
    (hvalid : ∀ e ∈ elements, Valid m.symbols m.classification e) :
    (((elements.map (factOf m.symbols)).filterMap fun (v, value) =>
        (m.numbering.handle? v).map fun handle => (handle, value)).map fun (handle, value) =>
          some (handle, m.initCode value))
      = (elements.filter fun e => m.classification.isFluent e.symbol).map m.initialPair? := by
  induction elements with
  | nil => rfl
  | cons e rest ih =>
    rw [List.forall_mem_cons] at hvalid
    obtain ⟨⟨s, hvalid⟩, hrest⟩ := hvalid
    rw [List.map_cons, factOf_of_valid hvalid, List.filterMap_cons, List.filter_cons]
    cases hfluent : m.classification.isFluent e.symbol with
    | false =>
      have hnone := handle?_eq_none h (v := e.stateVariable) hfluent
      simp only [hnone, Option.map_none, Bool.false_eq_true, if_false]
      exact ih hrest
    | true =>
      obtain ⟨handle, hhandle⟩ := exists_handle? h hvalid hfluent
      have hpair : m.initialPair? e = some (handle, m.initCode (factValue s e)) := by
        rw [initialPair?, hhandle, initialCode?_eq h hvalid]
        rfl
      simp only [hhandle, Option.map_some, if_true, List.map_cons, hpair]
      exact congrArg _ (ih hrest)

/-- The listing of the initial values has one line for each element about a fluent symbol. -/
theorem initPairs_perm (h : build t order = .ok m) :
    (m.initPairs.map some).Perm
      ((t.init.filter fun e => m.classification.isFluent e.symbol).map m.initialPair?) := by
  obtain ⟨hrecords, hvalid, -⟩ := records_of_build h
  rw [← map_filterMap_factOf h hvalid, initPairs, List.map_map, explicitValues]
  exact ((List.mergeSort_perm _ _).trans (hrecords.2.filterMap _)).map _

/-- The lines of the listing are in the order of their handles, which are different. -/
theorem initPairs_ascend (h : build t order = .ok m) : m.initPairs.Pairwise (·.1 < ·.1) := by
  obtain ⟨hrecords, -, hdistinct⟩ := records_of_build h
  -- Different variables have different handles.
  have hfacts : (m.init.facts.map Prod.fst).Nodup := by
    rw [(hrecords.2.map Prod.fst).nodup_iff, List.map_map]
    exact hdistinct
  have hne : (m.init.explicitValues m.numbering).Pairwise (·.1 ≠ ·.1) := by
    rw [explicitValues]
    refine (List.mergeSort_perm _ _).symm.pairwise ?_ (fun hne => hne.symm)
    rw [List.pairwise_filterMap]
    refine (List.pairwise_map.1 hfacts).imp ?_
    rintro ⟨v, value⟩ ⟨v', value'⟩ hv entry hentry entry' hentry' heq
    obtain ⟨handle, hhandle, rfl⟩ := Option.map_eq_some_iff.1 hentry
    obtain ⟨handle', hhandle', rfl⟩ := Option.map_eq_some_iff.1 hentry'
    cases heq
    rw [VariableNumbering.handle?_eq_some] at hhandle hhandle'
    exact hv (Option.some.inj (hhandle.symm.trans hhandle'))
  have hle : (m.init.explicitValues m.numbering).Pairwise (·.1 ≤ ·.1) :=
    pairwise_le_mergeSort_key Prod.fst _
  rw [initPairs, List.pairwise_map]
  exact hle.imp₂ (fun _ _ hab hne => Nat.lt_of_le_of_ne hab hne) hne

/-- The lines of the listing are those that were written into it. -/
theorem lines_initText (h : build t order = .ok m) :
    Text.lines (initText m.initPairs)
      = m.initPairs.map fun (handle, code) => toString handle ++ " " ++ code := by
  refine lines_unlines_of_not_mem fun c hc line hline => ?_
  obtain ⟨⟨handle, code⟩, hpair, rfl⟩ := List.mem_map.1 hline
  -- The pair is that of an element of the task.
  obtain ⟨e, -, he⟩ := List.mem_map.1
    ((initPairs_perm h).mem_iff.1 (List.mem_map_of_mem (f := some) hpair))
  simp only [initialPair?, Option.bind_eq_bind, Option.bind_eq_some_iff] at he
  obtain ⟨_, -, _, hcode, heq⟩ := he
  cases heq
  have hhandle : c ∉ (toString handle).toList :=
    not_mem_toString handle (by rcases hc with rfl | rfl <;> decide)
  have hspace : c ∉ " ".toList := by rcases hc with rfl | rfl <;> decide
  simp only [String.toList_append, List.mem_append, not_or]
  exact ⟨⟨hhandle, hspace⟩, not_mem_initialCode? hcode hc⟩

/-! ### Static symbols -/

/-- The lines of the file of a symbol. -/
def staticLines (m : GroundModel) (s : Symbol) : List String :=
  ((m.init.get? s.name).map fun a => a.entries.map (m.lineOf s.toSignature)).getD []

/-- The line of an element about a symbol. -/
def elementLine (m : GroundModel) (s : Symbol) (e : InitialFact) : String :=
  m.lineOf s.toSignature (e.args, factValue s e)

/-- The file of a symbol has one line for each element about the symbol. -/
theorem staticLines_perm (h : build t order = .ok m) {s : Symbol} (hs : s ∈ m.symbols.symbols)
    (hne : s.name ≠ equality) :
    (m.staticLines s).Perm ((t.init.filter (·.symbol = s.name)).map (m.elementLine s)) := by
  have hnodup := nodup_names h
  obtain ⟨hrecords, hvalid, -⟩ := records_of_build h
  obtain ⟨a, ha, -⟩ := exists_extension h hs hne
  have hperm := (hrecords.factsOf_perm hnodup ha).map fun fact =>
    m.lineOf s.toSignature (fact.1.args, fact.2)
  rw [factsOf, List.map_map, List.map_map] at hperm
  rw [staticLines, ha, Option.map_some, Option.getD_some]
  refine hperm.trans (.of_eq (List.map_congr_left fun e he => ?_))
  obtain ⟨he, hsymbol⟩ := List.mem_filter.1 he
  obtain ⟨s', hvalid⟩ := hvalid e he
  -- The element is about this very symbol.
  obtain ⟨hs', hname⟩ := (SymbolTable.get?_eq_some hnodup).1 hvalid.declared
  obtain rfl : s' = s :=
    List.inj_on_of_nodup_map hnodup hs' hs (hname.trans (of_decide_eq_true hsymbol))
  rw [Function.comp_apply, factOf_of_valid hvalid]
  rfl

/-! ### All elements -/

/-- The static symbols that have files. -/
def listedSymbols (m : GroundModel) : List Symbol :=
  m.symbols.symbols.filter fun s => m.classification.isStatic s.name && s.name != equality

/-- A symbol with a file. -/
theorem mem_listedSymbols {s : Symbol} :
    s ∈ m.listedSymbols ↔ s ∈ m.symbols.symbols ∧ m.classification.isStatic s.name = true ∧
      s.name ≠ equality := by
  rw [listedSymbols, List.mem_filter, Bool.and_eq_true, bne_iff_ne]

/-- A valid element is about a fluent symbol or about a symbol with a file, and not about both. -/
theorem isFluent_iff_not_listed (h : build t order = .ok m) {e : InitialFact}
    (hvalid : Valid m.symbols m.classification e) :
    m.classification.isFluent e.symbol = true ↔ e.symbol ∉ m.listedSymbols.map (·.name) := by
  have hactions := ofActions_of_build h
  obtain ⟨s, hvalid⟩ := hvalid
  obtain ⟨hs, hname⟩ := (SymbolTable.get?_eq_some (nodup_names h)).1 hvalid.declared
  constructor
  · intro hfluent hmem
    obtain ⟨s', hs', hname'⟩ := List.mem_map.1 hmem
    have hstatic := Classification.isFluent_of_isStatic (mem_listedSymbols.1 hs').2.1
    rw [hname', hfluent] at hstatic
    cases hstatic
  · intro hmem
    obtain ⟨k, hk⟩ := Classification.exists_tag? hactions hs
    cases k with
    | fluent =>
      rw [← hname, Classification.isFluent, hk]
      rfl
    | static =>
      have hstatic : m.classification.isStatic s.name = true := by
        rw [Classification.isStatic, hk]
        rfl
      have hlisted := mem_listedSymbols.2 ⟨hs, hstatic, hvalid.ne_equality⟩
      exact absurd (List.mem_map.2 ⟨s, hlisted, hname⟩) hmem

/-- The lines of all files are as many as the elements. -/
theorem length_initPairs_add (h : build t order = .ok m) :
    m.initPairs.length + (m.listedSymbols.map fun s => (m.staticLines s).length).sum
      = t.init.length := by
  obtain ⟨-, hvalid, -⟩ := records_of_build h
  have hfluent : m.initPairs.length
      = t.init.countP fun e => m.classification.isFluent e.symbol := by
    have hlength := (initPairs_perm h).length_eq
    rwa [List.length_map, List.length_map, ← List.countP_eq_length_filter] at hlength
  have hstatic : (m.listedSymbols.map fun s => (m.staticLines s).length).sum
      = t.init.countP (·.symbol ∈ m.listedSymbols.map (·.name)) := by
    have hnodup : (m.listedSymbols.map (·.name)).Nodup :=
      (nodup_names h).sublist (List.filter_sublist.map _)
    rw [← sum_countP_key hnodup, List.map_map]
    refine congrArg List.sum (List.map_congr_left fun s hs => ?_)
    obtain ⟨hs, -, hne⟩ := mem_listedSymbols.1 hs
    rw [(staticLines_perm h hs hne).length_eq, List.length_map, ← List.countP_eq_length_filter]
    rfl
  -- The elements about symbols with files are those that are not about fluent symbols.
  have hrest : t.init.countP (·.symbol ∈ m.listedSymbols.map (·.name))
      = t.init.countP fun e => ¬ m.classification.isFluent e.symbol = true := by
    refine List.countP_congr fun e he => ?_
    rw [decide_eq_true_eq, decide_eq_true_eq, isFluent_iff_not_listed h (hvalid e he), not_not]
  rw [hfluent, hstatic, hrest]
  exact (List.length_eq_countP_add_countP (fun e : InitialFact =>
    m.classification.isFluent e.symbol)).symm

end GroundModel

end Grounder
