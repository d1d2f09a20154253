import Grounder.Proofs.InitialState.Element
import Grounder.Proofs.InitialState.State

/-!
# `Grounder.Proofs.InitialState.Elements`: which initial states compile, and to what

The elements of an initial state are added one after another. The invariant of the loop is that the
state has the facts of the elements done so far, up to their order (`Records`). It decides the next
step: an element that is valid on its own is added unless an earlier one has the same variable.

`ofElements_spec` is the result for a whole list. It succeeds exactly when every element is valid
and no two have the same variable. A state that it gives has the facts of the elements and does not
depend on their order. An error is that of the first element that is refused.
-/

set_option autoImplicit false

namespace Grounder

/-- The variable that an element is about. -/
def InitialFact.stateVariable (e : InitialFact) : StateVariable := ⟨e.symbol, e.args⟩

namespace InitialState

open VariableNumbering

/-- What a valid element says: its variable and the value of it. -/
def factOf (table : SymbolTable) (e : InitialFact) : StateVariable × FactValue :=
  (e.stateVariable, ((table.get? e.symbol).map fun s => factValue s e).getD (.bool true))

/-- Elements that make an initial state: each is valid, and their variables are distinct. -/
def Accepts (table : SymbolTable) (c : Classification) (elements : List InitialFact) : Prop :=
  (∀ e ∈ elements, Valid table c e) ∧ (elements.map InitialFact.stateVariable).Nodup

/-- The error of an element after others: that of its own check, and otherwise that it repeats an
earlier one. -/
def Rejects (table : SymbolTable) (c : Classification) (before : List InitialFact)
    (e : InitialFact) (error : GroundingError) : Prop :=
  (¬ Valid table c e ∧ Refuses table c e error) ∨
    (Valid table c e ∧ e.stateVariable ∈ before.map InitialFact.stateVariable ∧
      error = .duplicateInitialization e.stateVariable e.text)

/-- A state that has the facts of some elements and no others. -/
def Records (table : SymbolTable) (state : InitialState) (elements : List InitialFact) : Prop :=
  FitsTable table state ∧ state.facts.Perm (elements.map (factOf table))

section Numbering

variable {table : SymbolTable} {c : Classification} {order : SymbolOrder}
  {numbering : VariableNumbering} {state : InitialState}

/-- The variables of the recorded facts are those of the elements. -/
theorem Records.mem_variables {elements : List InitialFact} (h : Records table state elements)
    (v : StateVariable) :
    v ∈ state.facts.map Prod.fst ↔ v ∈ elements.map InitialFact.stateVariable := by
  rw [(h.2.map Prod.fst).mem_iff, List.map_map]
  rfl

/-- One step of the loop on an element that passes its own check. -/
theorem add_of_checked (hnodup : table.names.Nodup) (hfits : FitsTable table state)
    {e : InitialFact} {value : Option FactValue}
    (hcheck : checkElement table numbering e = .ok (e.stateVariable, value)) :
    if e.stateVariable ∈ state.facts.map Prod.fst then
      add table numbering state e = .error (.duplicateInitialization e.stateVariable e.text)
    else ∃ state', add table numbering state e = .ok state' ∧ FitsTable table state' ∧
      state'.facts.Perm ((e.stateVariable, value.getD (.bool true)) :: state.facts) := by
  have hadd : add table numbering state e = (state.insert? e.stateVariable value).elim
      (.error (.duplicateInitialization e.stateVariable e.text)) .ok := by
    rw [add, hcheck]
    simp only [bind, Except.bind]
    cases state.insert? e.stateVariable value <;> rfl
  obtain ⟨s, hget, hne, -, hvalue, -, -⟩ := (checkElement_eq_ok hnodup).1 hcheck
  obtain ⟨hs, hname⟩ := (SymbolTable.get?_eq_some hnodup).1 hget
  have hinsert := hfits.insert? hnodup hs hne e.args (isNone_of_valueOf hvalue)
  rw [hname] at hinsert
  rw [hadd]
  split
  · rename_i hin
    rw [InitialFact.stateVariable] at hin
    rw [if_pos hin] at hinsert
    rw [InitialFact.stateVariable, hinsert, Option.elim_none]
  · rename_i hout
    rw [InitialFact.stateVariable] at hout
    rw [if_neg hout] at hinsert
    obtain ⟨state', hsome, hfits', hperm⟩ := hinsert
    rw [InitialFact.stateVariable, hsome]
    exact ⟨state', rfl, hfits', hperm⟩

/-- One step of the loop on a valid element. -/
theorem add_of_valid (hnodup : table.names.Nodup) (h : ofSymbols table c order = .ok numbering)
    {done : List InitialFact} (hrecords : Records table state done) {e : InitialFact}
    (hvalid : Valid table c e) :
    if e.stateVariable ∈ done.map InitialFact.stateVariable then
      add table numbering state e = .error (.duplicateInitialization e.stateVariable e.text)
    else ∃ state', add table numbering state e = .ok state' ∧
      Records table state' (done ++ [e]) := by
  obtain ⟨s, hvalid⟩ := hvalid
  obtain ⟨value, hcheck, -, hfact⟩ := checkElement_of_valid hnodup h hvalid
  have hvariable : (⟨s.name, e.args⟩ : StateVariable) = e.stateVariable := by
    rw [InitialFact.stateVariable, ((SymbolTable.get?_eq_some hnodup).1 hvalid.declared).2]
  rw [hvariable] at hcheck
  have hstep := add_of_checked hnodup hrecords.1 hcheck
  simp only [hrecords.mem_variables] at hstep
  split
  · rename_i hin
    rwa [if_pos hin] at hstep
  · rename_i hout
    rw [if_neg hout] at hstep
    obtain ⟨state', hadd, hfits, hperm⟩ := hstep
    refine ⟨state', hadd, hfits, ?_⟩
    rw [List.map_append, List.map_singleton, factOf, hvalid.declared, Option.map_some,
      Option.getD_some, ← hfact]
    exact (hperm.trans (hrecords.2.cons _)).trans (List.perm_append_singleton _ _).symm

/-- A run of the loop goes through all elements that are left, or stops at the first that is
rejected after those before it. -/
theorem foldlM_add (hnodup : table.names.Nodup) (h : ofSymbols table c order = .ok numbering)
    (rest : List InitialFact) {done : List InitialFact} (haccepts : Accepts table c done)
    (hrecords : Records table state done) :
    (∃ state', rest.foldlM (add table numbering) state = .ok state' ∧
      Records table state' (done ++ rest) ∧ Accepts table c (done ++ rest)) ∨
    ∃ before e after error, rest = before ++ e :: after ∧
      rest.foldlM (add table numbering) state = .error error ∧
      Accepts table c (done ++ before) ∧ Rejects table c (done ++ before) e error := by
  induction rest generalizing state done with
  | nil =>
    rw [List.append_nil]
    exact .inl ⟨state, rfl, hrecords, haccepts⟩
  | cons e rest ih =>
    rw [List.foldlM_cons]
    by_cases hvalid : Valid table c e
    · have hstep := add_of_valid hnodup h hrecords hvalid
      split at hstep
      · -- The element repeats one before it, and the loop stops.
        rename_i hrepeats
        rw [hstep]
        refine .inr ⟨[], e, rest, _, rfl, rfl, ?_, .inr ⟨hvalid, ?_, rfl⟩⟩
        · rwa [List.append_nil]
        · rwa [List.append_nil]
      · -- The element is new, and the loop goes on from a state that records it too.
        rename_i hnew
        obtain ⟨state', hadd, hrecords'⟩ := hstep
        have haccepts' : Accepts table c (done ++ [e]) := by
          refine ⟨fun e' he' => ?_, ?_⟩
          · rcases List.mem_append.1 he' with he' | he'
            · exact haccepts.1 e' he'
            · rwa [List.mem_singleton.1 he']
          · rw [List.map_append, List.map_singleton, ← List.concat_eq_append]
            exact haccepts.2.concat hnew
        rw [hadd]
        rcases ih haccepts' hrecords' with ⟨final, hfold, hfinal, hall⟩ |
          ⟨before, e', after, error, hrest, hfold, hbefore, hrejects⟩
        · rw [List.append_cons]
          exact .inl ⟨final, hfold, hfinal, hall⟩
        · refine .inr ⟨e :: before, e', after, error, ?_, hfold, ?_, ?_⟩
          · rw [hrest, List.cons_append]
          · rwa [List.append_cons]
          · rwa [List.append_cons]
    · -- The element fails its own check, and the loop stops.
      obtain ⟨error, hcheck, hrefuses⟩ := checkElement_of_not_valid hnodup h hvalid
      have hadd : add table numbering state e = .error error := by
        rw [add, hcheck]
        rfl
      rw [hadd]
      refine .inr ⟨[], e, rest, error, rfl, rfl, ?_, .inl ⟨hvalid, hrefuses⟩⟩
      rwa [List.append_nil]

/-- Elements with a rejected one among them make no initial state. -/
theorem not_accepts_of_rejects {before after : List InitialFact} {e : InitialFact}
    {error : GroundingError} (h : Rejects table c before e error) :
    ¬ Accepts table c (before ++ e :: after) := by
  rintro ⟨hvalid, hdistinct⟩
  rcases h with ⟨hinvalid, -⟩ | ⟨-, hrepeats, -⟩
  · exact hinvalid (hvalid e (List.mem_append_right before List.mem_cons_self))
  · rw [List.map_append, List.map_cons] at hdistinct
    exact (List.nodup_append.1 hdistinct).2.2 _ hrepeats _ List.mem_cons_self rfl

/-- A list of elements compiles to a state that records them, or stops at the first rejected one. -/
theorem ofElements_cases (hnodup : table.names.Nodup) (h : ofSymbols table c order = .ok numbering)
    (elements : List InitialFact) :
    (∃ state, ofElements table numbering elements = .ok state ∧ Records table state elements ∧
      Accepts table c elements) ∨
    ∃ before e after error, elements = before ++ e :: after ∧
      ofElements table numbering elements = .error error ∧ Accepts table c before ∧
      Rejects table c before e error := by
  have hempty : Records table (emptyFor table) [] :=
    ⟨fitsTable_emptyFor hnodup, by rw [facts_emptyFor]; exact .nil⟩
  exact foldlM_add hnodup h elements ⟨fun _ he => (List.not_mem_nil he).elim, .nil⟩ hempty

/-- Elements in another order compile to the same state. -/
theorem ofElements_perm (hnodup : table.names.Nodup) (h : ofSymbols table c order = .ok numbering)
    {elements permuted : List InitialFact} (hperm : elements.Perm permuted)
    (hstate : ofElements table numbering elements = .ok state) :
    ofElements table numbering permuted = .ok state := by
  rcases ofElements_cases hnodup h elements with ⟨final, hfinal, hrecords, haccepts⟩ |
    ⟨_, _, _, error, -, herror, -⟩
  · rw [hstate] at hfinal
    cases hfinal
    rcases ofElements_cases hnodup h permuted with ⟨state', hstate', hrecords', -⟩ |
      ⟨before, e, after, error, rfl, -, -, hrejects⟩
    · -- Both states have the facts of the same elements.
      have hfacts : state.facts.Perm state'.facts :=
        (hrecords.2.trans (hperm.map _)).trans hrecords'.2.symm
      rw [hstate', hrecords.1.eq_of_facts hrecords'.1 hnodup fun fact => hfacts.mem_iff]
    · refine absurd ⟨fun e he => haccepts.1 e (hperm.mem_iff.2 he), ?_⟩
        (not_accepts_of_rejects hrejects)
      exact (hperm.map _).nodup_iff.1 haccepts.2
  · rw [hstate] at herror
    cases herror

/-- The initial state compiles exactly for lists of valid elements with distinct variables. What it
compiles to has the facts of the elements, one for each of them and no others, and is the same for
every order of the elements. If it does not compile, the error is that of the first element that is
invalid or repeats an earlier one. -/
theorem ofElements_spec {t : Task} (htable : SymbolTable.ofTask t = .ok table)
    (h : ofSymbols table c order = .ok numbering) (elements : List InitialFact) :
    ((∃ state, ofElements table numbering elements = .ok state) ↔
      (∀ e ∈ elements, Valid table c e) ∧ (elements.map InitialFact.stateVariable).Nodup) ∧
    (∀ state, ofElements table numbering elements = .ok state →
      FitsTable table state ∧ state.facts.Perm (elements.map (factOf table)) ∧
      state.atomCount = elements.length ∧
      ∀ permuted, elements.Perm permuted → ofElements table numbering permuted = .ok state) ∧
    ∀ error, ofElements table numbering elements = .error error →
      ∃ before e after, elements = before ++ e :: after ∧ Accepts table c before ∧
        Rejects table c before e error := by
  have hnodup := (SymbolTable.declares_of_ofTask htable).1.nodup
  rcases ofElements_cases hnodup h elements with ⟨state, hstate, hrecords, haccepts⟩ |
    ⟨before, e, after, error, helements, herror, hbefore, hrejects⟩
  · refine ⟨iff_of_true ⟨state, hstate⟩ haccepts, fun final hfinal => ?_, fun error herror => ?_⟩
    · rw [hstate] at hfinal
      cases hfinal
      refine ⟨hrecords.1, hrecords.2, ?_, fun permuted hperm => ?_⟩
      · rw [atomCount_eq_length, hrecords.2.length_eq, List.length_map]
      · exact ofElements_perm hnodup h hperm hstate
    · rw [hstate] at herror
      cases herror
  · refine ⟨iff_of_false ?_ ?_, fun final hfinal => ?_, fun other hother => ?_⟩
    · rintro ⟨state, hstate⟩
      rw [hstate] at herror
      cases herror
    · rw [helements]
      exact not_accepts_of_rejects hrejects
    · rw [herror] at hfinal
      cases hfinal
    · rw [herror] at hother
      cases hother
      exact ⟨before, e, after, helements, hbefore, hrejects⟩

end Numbering

/-- The initial state of `parkingTask` with two facts compiles, in either order, to a state with
these two facts. -/
theorem ofElements_spec_parking :
    ∃ table c numbering state, SymbolTable.ofTask parkingTask = .ok table ∧
      Classification.ofActions parkingTask.actions table = .ok c ∧
      ofSymbols table c .declaration = .ok numbering ∧
      ofElements table numbering [.atom "at" ["a", "x"] false, .atom "free" ["y"] false]
        = .ok state ∧
      state.atomCount = 2 ∧
      ofElements table numbering [.atom "free" ["y"] false, .atom "at" ["a", "x"] false]
        = .ok state := by
  obtain ⟨table, htable⟩ : ∃ table, SymbolTable.ofTask parkingTask = .ok table := ⟨_, rfl⟩
  obtain ⟨c, hc⟩ : ∃ c, Classification.ofActions parkingTask.actions table = .ok c := by
    cases htable
    exact ⟨_, rfl⟩
  obtain ⟨numbering, hnumbering⟩ : ∃ numbering,
      ofSymbols table c .declaration = .ok numbering := by
    cases htable
    cases hc
    exact ⟨_, rfl⟩
  obtain ⟨state, hstate⟩ : ∃ state, ofElements table numbering
      [.atom "at" ["a", "x"] false, .atom "free" ["y"] false] = .ok state := by
    cases htable
    cases hc
    cases hnumbering
    exact ⟨_, rfl⟩
  obtain ⟨-, hok, -⟩ := ofElements_spec htable hnumbering
    [.atom "at" ["a", "x"] false, .atom "free" ["y"] false]
  obtain ⟨-, -, hcount, hperm⟩ := hok state hstate
  exact ⟨table, c, numbering, state, htable, hc, hnumbering, hstate, hcount,
    hperm _ (.swap _ _ [])⟩

end InitialState

end Grounder
