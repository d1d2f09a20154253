import Grounder.Proofs.InitialState.Assignment
import Grounder.Proofs.SymbolTable

/-!
# `Grounder.Proofs.InitialState.State`: adding a fact to an initial state

A state of a table has an extension for every symbol but equality, of the kind that the symbol
takes and in ascending order (`FitsTable`). Adding a fact keeps it so. It fails exactly when the
variable of the fact has one already, and otherwise the facts are those from before and the new
one (`FitsTable.insert?`).

States of one table with the same facts are equal (`FitsTable.eq_of_facts`), so a state does not
remember in which order its facts were added.
-/

set_option autoImplicit false

namespace Grounder

namespace InitialState

/-- A state has the extensions that a table asks for. -/
structure FitsTable (table : SymbolTable) (state : InitialState) : Prop where
  names : state.assignments.map Prod.fst
    = (table.symbols.filter (·.name ≠ equality)).map (·.name)
  extension : ∀ s ∈ table.symbols, s.name ≠ equality →
    ∃ a, state.get? s.name = some a ∧ a.isRelation = s.isPredicate ∧ a.Ascending

variable {table : SymbolTable} {state state' : InitialState}

/-! ### Looking up an extension -/

/-- The extension of a symbol stands at one place, if names are unique. -/
theorem get?_eq_some (hnodup : (state.assignments.map Prod.fst).Nodup) {symbol : String}
    {a : Assignment} :
    state.get? symbol = some a ↔
      ∃ before after, state.assignments = before ++ (symbol, a) :: after ∧
        ∀ entry ∈ before ++ after, entry.1 ≠ symbol := by
  rw [InitialState.get?, List.lookup_eq_some_iff]
  constructor
  · rintro ⟨before, after, hassignments, hbefore⟩
    refine ⟨before, after, hassignments, fun entry hentry heq => ?_⟩
    rcases List.mem_append.1 hentry with hentry | hentry
    · simpa [heq] using hbefore entry hentry
    · rw [hassignments, List.map_append, List.map_cons] at hnodup
      have hafter := (List.nodup_cons.1 (List.nodup_append.1 hnodup).2.1).1
      exact hafter (List.mem_map.2 ⟨entry, hentry, heq⟩)
  · rintro ⟨before, after, hassignments, hothers⟩
    refine ⟨before, after, hassignments, fun entry hentry => ?_⟩
    simpa using (hothers entry (List.mem_append_left after hentry)).symm

/-- Replacing an extension replaces it at its place. -/
theorem assignments_set {symbol : String} {a a' : Assignment}
    {before after : List (String × Assignment)}
    (hassignments : state.assignments = before ++ (symbol, a) :: after)
    (hothers : ∀ entry ∈ before ++ after, entry.1 ≠ symbol) :
    (state.set symbol a').assignments = before ++ (symbol, a') :: after := by
  have hmap : ∀ entries : List (String × Assignment), entries ⊆ before ++ after →
      (entries.map fun entry => if entry.1 = symbol then (symbol, a') else entry) = entries := by
    intro entries hsub
    refine (List.map_congr_left fun entry hentry => ?_).trans entries.map_id
    rw [if_neg (hothers entry (hsub hentry)), id]
  rw [set, hassignments, List.map_append, List.map_cons, if_pos rfl,
    hmap before (List.subset_append_left before after),
    hmap after (List.subset_append_right before after)]

/-- After replacing an extension, looking it up gives the new one. -/
theorem get?_set_self {symbol : String} {a : Assignment} (a' : Assignment)
    (h : state.get? symbol = some a) : (state.set symbol a').get? symbol = some a' := by
  obtain ⟨entries⟩ := state
  simp only [InitialState.get?, set] at h ⊢
  induction entries with
  | nil => cases h
  | cons entry rest ih =>
    rw [List.map_cons]
    by_cases heq : entry.1 = symbol
    · rw [if_pos heq, List.lookup_cons, beq_self_eq_true]
    · rw [List.lookup_cons, beq_false_of_ne (Ne.symm heq)] at h
      rw [if_neg heq, List.lookup_cons, beq_false_of_ne (Ne.symm heq)]
      exact ih h

/-- Replacing an extension leaves those of the other symbols alone. -/
theorem get?_set_of_ne {symbol other : String} (a' : Assignment) (h : other ≠ symbol) :
    (state.set symbol a').get? other = state.get? other := by
  rw [InitialState.get?, InitialState.get?, set]
  induction state.assignments with
  | nil => rfl
  | cons entry rest ih =>
    rw [List.map_cons]
    by_cases heq : entry.1 = symbol
    · rw [if_pos heq, List.lookup_cons, beq_false_of_ne h, List.lookup_cons,
        beq_false_of_ne (heq ▸ h)]
      exact ih
    · rw [if_neg heq, List.lookup_cons, List.lookup_cons, ih]

/-- Lists of extensions for the same symbols are the same if looking up a symbol gives the same. -/
theorem eq_of_lookup_eq {entries entries' : List (String × Assignment)}
    (hnames : entries.map Prod.fst = entries'.map Prod.fst)
    (hnodup : (entries.map Prod.fst).Nodup)
    (h : ∀ name ∈ entries.map Prod.fst, entries.lookup name = entries'.lookup name) :
    entries = entries' := by
  induction entries generalizing entries' with
  | nil => exact (List.map_eq_nil_iff.1 hnames.symm).symm
  | cons entry rest ih =>
    cases entries' with
    | nil => cases hnames
    | cons entry' rest' =>
      obtain ⟨name, a⟩ := entry
      obtain ⟨name', a'⟩ := entry'
      obtain ⟨rfl, hrest⟩ := List.cons.inj hnames
      obtain ⟨hnew, hnodup⟩ := List.nodup_cons.1 hnodup
      have ha := h name List.mem_cons_self
      rw [List.lookup_cons, beq_self_eq_true, List.lookup_cons, beq_self_eq_true] at ha
      rw [Option.some.inj ha, ih hrest hnodup fun other hother => ?_]
      have hother' := h other (List.mem_cons_of_mem name hother)
      have hne : other ≠ name := fun heq => hnew (heq ▸ hother)
      rw [List.lookup_cons, List.lookup_cons, beq_false_of_ne hne] at hother'
      exact hother'

/-! ### Facts -/

/-- The facts of one extension. -/
def factsOf (symbol : String) (a : Assignment) : List (StateVariable × FactValue) :=
  a.entries.map fun entry => (⟨symbol, entry.1⟩, entry.2)

/-- The facts are those of the extensions, one after another. -/
theorem facts_eq (state : InitialState) :
    state.facts = state.assignments.flatMap fun entry => factsOf entry.1 entry.2 := rfl

/-- There are as many facts as the count says. -/
theorem atomCount_eq_length (state : InitialState) : state.atomCount = state.facts.length := by
  rw [atomCount, facts_eq]
  induction state.assignments with
  | nil => rfl
  | cons entry rest ih =>
    rw [List.foldr_cons, ih, List.flatMap_cons, List.length_append, factsOf, List.length_map,
      Assignment.size]

/-- A fact of a state is an entry of the extension of its symbol. -/
theorem mem_facts (hnodup : (state.assignments.map Prod.fst).Nodup) {v : StateVariable}
    {value : FactValue} :
    (v, value) ∈ state.facts ↔
      ∃ a, state.get? v.symbol = some a ∧ (v.args, value) ∈ a.entries := by
  rw [facts_eq, List.mem_flatMap]
  constructor
  · rintro ⟨entry, hentry, hmem⟩
    obtain ⟨member, hmember, heq⟩ := List.mem_map.1 hmem
    cases heq
    refine ⟨entry.2, ?_, hmember⟩
    obtain ⟨before, after, hassignments⟩ := List.append_of_mem hentry
    refine (get?_eq_some hnodup).2 ⟨before, after, hassignments, fun other hother heq => ?_⟩
    rw [hassignments, List.map_append, List.map_cons] at hnodup
    obtain ⟨-, hcons, hdisjoint⟩ := List.nodup_append.1 hnodup
    rcases List.mem_append.1 hother with hother | hother
    · exact hdisjoint _ (List.mem_map.2 ⟨other, hother, rfl⟩) _ List.mem_cons_self heq
    · exact (List.nodup_cons.1 hcons).1 (List.mem_map.2 ⟨other, hother, heq⟩)
  · rintro ⟨a, hget, hmem⟩
    obtain ⟨before, after, hassignments, -⟩ := (get?_eq_some hnodup).1 hget
    refine ⟨(v.symbol, a), ?_, List.mem_map.2 ⟨_, hmem, rfl⟩⟩
    rw [hassignments]
    exact List.mem_append_right before List.mem_cons_self

/-! ### Adding a fact -/

/-- A fact goes into the extension of its symbol. -/
theorem insert?_eq_map {v : StateVariable} {a : Assignment} (hget : state.get? v.symbol = some a)
    (value : Option FactValue) :
    state.insert? v value = (a.insert? v.args value).map (state.set v.symbol) := by
  rw [InitialState.insert?, hget]
  show (a.insert? v.args value >>= fun a' => pure (state.set v.symbol a')) = _
  cases a.insert? v.args value <;> rfl

/-- The state without facts fits its table. -/
theorem fitsTable_emptyFor (hnodup : table.names.Nodup) : FitsTable table (emptyFor table) := by
  have hnames : ((emptyFor table).assignments.map Prod.fst)
      = (table.symbols.filter (·.name ≠ equality)).map (·.name) := by
    rw [emptyFor, List.map_map]
    rfl
  refine ⟨hnames, fun s hs hne => ⟨Assignment.emptyFor s, ?_, ?_, ?_⟩⟩
  · have hfilter : s ∈ table.symbols.filter (·.name ≠ equality) :=
      List.mem_filter.2 ⟨hs, by simpa using hne⟩
    obtain ⟨before, after, heq⟩ := List.append_of_mem hfilter
    have hunique : ((table.symbols.filter (·.name ≠ equality)).map (·.name)).Nodup :=
      hnodup.sublist (List.filter_sublist.map _)
    rw [InitialState.get?, emptyFor, heq, List.lookup_eq_some_iff]
    rw [heq, List.map_append, List.map_cons] at hunique
    refine ⟨before.map fun s => (s.name, Assignment.emptyFor s),
      after.map fun s => (s.name, Assignment.emptyFor s), by rw [List.map_append, List.map_cons],
      fun entry hentry => ?_⟩
    obtain ⟨other, hother, rfl⟩ := List.mem_map.1 hentry
    have hne := (List.nodup_append.1 hunique).2.2 _ (List.mem_map.2 ⟨other, hother, rfl⟩) _
      List.mem_cons_self
    simpa using hne.symm
  · rw [Assignment.emptyFor]
    cases s.isPredicate <;> rfl
  · rw [Assignment.emptyFor]
    cases s.isPredicate <;> exact .nil

/-- The state without facts has none. -/
theorem facts_emptyFor (table : SymbolTable) : (emptyFor table).facts = [] := by
  rw [facts_eq, emptyFor, List.flatMap_map, List.flatMap_eq_nil_iff]
  intro s _
  rw [factsOf, Assignment.emptyFor]
  cases s.isPredicate <;> rfl

namespace FitsTable

/-- The symbols of a state are distinct. -/
theorem nodup (h : FitsTable table state) (hnodup : table.names.Nodup) :
    (state.assignments.map Prod.fst).Nodup := by
  rw [h.names]
  exact hnodup.sublist (List.filter_sublist.map _)

/-- Replacing an extension by one of the same kind keeps the state fitting. -/
theorem set (h : FitsTable table state) {s : Symbol} (hnodup : table.names.Nodup)
    (hs : s ∈ table.symbols) {a a' : Assignment} (hget : state.get? s.name = some a)
    (hkind : a'.isRelation = s.isPredicate) (hasc : a'.Ascending) :
    FitsTable table (state.set s.name a') := by
  refine ⟨?_, fun other hother hne => ?_⟩
  · rw [← h.names, InitialState.set, List.map_map]
    refine List.map_congr_left fun entry _ => ?_
    rw [Function.comp]
    split
    · rename_i heq
      exact heq.symm
    · rfl
  · by_cases heq : other.name = s.name
    · rw [List.inj_on_of_nodup_map hnodup hother hs heq]
      exact ⟨a', get?_set_self a' hget, hkind, hasc⟩
    · rw [get?_set_of_ne a' heq]
      exact h.extension other hother hne

/-- Adding a fact fails if its variable has one already. Otherwise it adds this fact and nothing
else. -/
theorem insert? (h : FitsTable table state) (hnodup : table.names.Nodup) {s : Symbol}
    (hs : s ∈ table.symbols) (hne : s.name ≠ equality) (args : List String)
    {value : Option FactValue} (hvalue : value.isNone = s.isPredicate) :
    if ⟨s.name, args⟩ ∈ state.facts.map Prod.fst then state.insert? ⟨s.name, args⟩ value = none
    else
      ∃ state', state.insert? ⟨s.name, args⟩ value = some state' ∧ FitsTable table state' ∧
        state'.facts.Perm ((⟨s.name, args⟩, value.getD (.bool true)) :: state.facts) := by
  obtain ⟨a, hget, hkind, hasc⟩ := h.extension s hs hne
  have htakes : a.Takes value := hvalue.trans hkind.symm
  have hinsert := insert?_eq_map (v := ⟨s.name, args⟩) hget value
  -- The variable has a fact exactly when the extension has the tuple.
  have hmem : ⟨s.name, args⟩ ∈ state.facts.map Prod.fst
      ↔ a.insert? args value = none := by
    rw [Assignment.insert?_eq_none htakes, Assignment.insertValue?_eq_none hasc, List.mem_map,
      List.mem_map]
    constructor
    · rintro ⟨⟨v, x⟩, hfact, rfl⟩
      obtain ⟨a', hget', hentry⟩ := (mem_facts (h.nodup hnodup)).1 hfact
      rw [hget] at hget'
      cases hget'
      exact ⟨_, hentry, rfl⟩
    · rintro ⟨⟨tuple, x⟩, hentry, rfl⟩
      exact ⟨_, (mem_facts (h.nodup hnodup)).2 ⟨a, hget, hentry⟩, rfl⟩
  split
  · rename_i hin
    rw [hinsert, hmem.1 hin, Option.map_none]
  · rename_i hout
    obtain ⟨a', ha'⟩ := Option.ne_none_iff_exists'.1 (mt hmem.2 hout)
    obtain ⟨hentries, hkind'⟩ := Assignment.insert?_eq_some htakes ha'
    refine ⟨state.set s.name a', by rw [hinsert, ha', Option.map_some], ?_, ?_⟩
    · exact h.set hnodup hs hget (hkind'.trans hkind)
        (Assignment.insertValue?_ascending hasc hentries)
    · -- Only the entries of this symbol have changed, by the new one.
      obtain ⟨before, after, hassignments, hothers⟩ := (get?_eq_some (h.nodup hnodup)).1 hget
      rw [facts_eq, facts_eq, assignments_set hassignments hothers, hassignments]
      simp only [List.flatMap_append, List.flatMap_cons]
      have hperm := (Assignment.insertValue?_perm hentries).map fun entry =>
        ((⟨s.name, entry.1⟩, entry.2) : StateVariable × FactValue)
      rw [List.map_cons] at hperm
      refine .trans (.append_left _ (.append_right _ hperm)) ?_
      exact List.perm_middle

/-- States of one table with the same facts are the same. -/
theorem eq_of_facts (h : FitsTable table state) (h' : FitsTable table state')
    (hnodup : table.names.Nodup) (hfacts : ∀ fact, fact ∈ state.facts ↔ fact ∈ state'.facts) :
    state = state' := by
  -- The facts of a symbol determine its extension, because that is ascending.
  have hget : ∀ s ∈ table.symbols, s.name ≠ equality →
      state.get? s.name = state'.get? s.name := by
    intro s hs hne
    obtain ⟨a, ha, hkind, hasc⟩ := h.extension s hs hne
    obtain ⟨a', ha', hkind', hasc'⟩ := h'.extension s hs hne
    rw [ha, ha', Assignment.eq_of_ascending (hkind.trans hkind'.symm) hasc hasc']
    rintro ⟨tuple, value⟩
    have hiff := hfacts (⟨s.name, tuple⟩, value)
    rw [mem_facts (h.nodup hnodup), mem_facts (h'.nodup hnodup)] at hiff
    simpa [ha, ha'] using hiff
  have hnames : state.assignments.map Prod.fst = state'.assignments.map Prod.fst :=
    h.names.trans h'.names.symm
  have hassignments := eq_of_lookup_eq hnames (h.nodup hnodup) fun name hname => by
    rw [h.names] at hname
    obtain ⟨s, hs, rfl⟩ := List.mem_map.1 hname
    obtain ⟨hs, hne⟩ := List.mem_filter.1 hs
    exact hget s hs (by simpa using hne)
  obtain ⟨assignments⟩ := state
  rw [show assignments = state'.assignments from hassignments]

end FitsTable

end InitialState

end Grounder
