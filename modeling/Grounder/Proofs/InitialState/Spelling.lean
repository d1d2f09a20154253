import Grounder.Proofs.InitialState.Elements
import Grounder.Proofs.Text.Decimal

/-!
# `Grounder.Proofs.InitialState.Spelling`: variables that are given a value twice

An argument at a numeric type stands for the integer that it writes, and any other argument for the
object of its name. Two elements are about the same variable if they have the same symbol and their
arguments stand for the same (`Repeats`).

The initial state tells variables apart by the texts of the arguments, and an integer has several
texts, such as `5`, `05` and `+5`. So an element can repeat a variable in another spelling.
`ofElements_repeats` says how far this goes. Accepted elements that repeat a variable spell an
integer differently, so none does if all integers are written plainly. And wherever an accepted
element is about a symbol without handles, every further spelling of it is accepted too.
`level_given_twice` is the smallest case.
-/

set_option autoImplicit false

namespace Grounder

/-- The element with other arguments. -/
def InitialFact.withArgs (e : InitialFact) (args : List String) : InitialFact :=
  match e with
  | .atom symbol _ negated => .atom symbol args negated
  | .assign symbol _ value => .assign symbol args value

@[simp] theorem InitialFact.symbol_withArgs (e : InitialFact) (args : List String) :
    (e.withArgs args).symbol = e.symbol := by
  cases e <;> rfl

@[simp] theorem InitialFact.args_withArgs (e : InitialFact) (args : List String) :
    (e.withArgs args).args = args := by
  cases e <;> rfl

namespace InitialState

open Proofs.Support

/-! ### What arguments stand for -/

/-- What an argument stands for at a type: the integer that it writes at a numeric type, and
otherwise the object of that name. -/
def argumentOf (type arg : String) : FactValue :=
  if isNumericType type then ((Text.integer? arg).map .int).getD (.object arg) else .object arg

/-- Two elements that give the same symbol the same argument values. -/
def Repeats (table : SymbolTable) (e e' : InitialFact) : Prop :=
  e.symbol = e'.symbol ∧ ∃ s, table.get? e.symbol = some s ∧
    List.zipWith argumentOf s.params e.args = List.zipWith argumentOf s.params e'.args

/-- Two texts at a numeric type that write the same integer. -/
def SpelledApart (type arg arg' : String) : Prop :=
  isNumericType type = true ∧ arg ≠ arg' ∧
    ∃ n, Text.integer? arg = some n ∧ Text.integer? arg' = some n

/-- Two elements that have the same integer as an argument at some position of the first one's
symbol, in texts that differ. -/
def SpellApart (table : SymbolTable) (e e' : InitialFact) : Prop :=
  ∃ (s : Symbol) (position : Nat) (type arg arg' : String), table.get? e.symbol = some s ∧
    s.params[position]? = some type ∧ e.args[position]? = some arg ∧
    e'.args[position]? = some arg' ∧ SpelledApart type arg arg'

/-- An argument that is not an integer in an unusual spelling: with a plus sign, with leading zeros
or with a minus before zero. -/
def WrittenPlainly (type arg : String) : Prop :=
  isNumericType type = true → ∀ n, Text.integer? arg = some n → arg = toString n.toInt

/-- A text stands for an integer only if it writes the integer, at a numeric type. -/
theorem integer?_of_argumentOf {type arg : String} {n : Int64} (h : argumentOf type arg = .int n) :
    isNumericType type = true ∧ Text.integer? arg = some n := by
  rw [argumentOf] at h
  split at h
  · rename_i hnumeric
    cases hinteger : Text.integer? arg with
    | none =>
      rw [hinteger] at h
      cases h
    | some n' =>
      rw [hinteger] at h
      cases h
      exact ⟨hnumeric, rfl⟩
  · cases h

/-- A text that stands for an object is the object's name. -/
theorem eq_of_argumentOf {type arg name : String} (h : argumentOf type arg = .object name) :
    arg = name := by
  rw [argumentOf] at h
  split at h
  · cases hinteger : Text.integer? arg with
    | none =>
      rw [hinteger] at h
      exact FactValue.object.inj h
    | some n =>
      rw [hinteger] at h
      cases h
  · exact FactValue.object.inj h

/-- Texts that stand for the same are the same, or spell an integer differently. -/
theorem eq_or_spelledApart {type arg arg' : String}
    (h : argumentOf type arg = argumentOf type arg') : arg = arg' ∨ SpelledApart type arg arg' := by
  by_cases heq : arg = arg'
  · exact Or.inl heq
  · right
    cases hvalue : argumentOf type arg' with
    | bool b =>
      rw [argumentOf] at hvalue
      split at hvalue
      · cases hinteger : Text.integer? arg' <;> rw [hinteger] at hvalue <;> cases hvalue
      · cases hvalue
    | int n =>
      obtain ⟨hnumeric, hn⟩ := integer?_of_argumentOf (h.trans hvalue)
      exact ⟨hnumeric, heq, n, hn, (integer?_of_argumentOf hvalue).2⟩
    | object name =>
      exact absurd ((eq_of_argumentOf (h.trans hvalue)).trans (eq_of_argumentOf hvalue).symm) heq

/-- Different texts that stand for the same, one by one, spell an integer differently somewhere. -/
theorem exists_spelledApart {types args args' : List String} (hlength : args.length = types.length)
    (hlength' : args'.length = types.length)
    (h : List.zipWith argumentOf types args = List.zipWith argumentOf types args')
    (hne : args ≠ args') :
    ∃ (position : Nat) (type arg arg' : String), types[position]? = some type ∧
      args[position]? = some arg ∧ args'[position]? = some arg' ∧ SpelledApart type arg arg' := by
  -- By induction on the parameters: the first two texts that differ are spelled apart.
  induction types generalizing args args' with
  | nil =>
    rw [List.length_eq_zero_iff.1 hlength, List.length_eq_zero_iff.1 hlength'] at hne
    exact absurd rfl hne
  | cons type types ih =>
    obtain ⟨arg, args, rfl⟩ := List.exists_cons_of_length_eq_add_one hlength
    obtain ⟨arg', args', rfl⟩ := List.exists_cons_of_length_eq_add_one hlength'
    rw [List.zipWith_cons_cons, List.zipWith_cons_cons, List.cons.injEq] at h
    rcases eq_or_spelledApart h.1 with rfl | hapart
    · -- The texts agree here, so they differ further on.
      have hrest : args ≠ args' := fun heq => hne (heq ▸ rfl)
      obtain ⟨position, type', a, a', htype, ha, ha', hapart⟩ :=
        ih (Nat.succ.inj hlength) (Nat.succ.inj hlength') h.2 hrest
      exact ⟨position + 1, type', a, a', htype, ha, ha', hapart⟩
    · exact ⟨0, type, arg, arg', rfl, rfl, rfl, hapart⟩

/-! ### Accepted elements -/

section Accepted

variable {table : SymbolTable} {numbering : VariableNumbering} {elements : List InitialFact}
  {state : InitialState}

/-- An element that is added passes its own check, and is about a new variable. -/
theorem add_eq_ok (hnodup : table.names.Nodup) (hfits : FitsTable table state) {e : InitialFact}
    {state' : InitialState} :
    add table numbering state e = .ok state' →
      (∃ value, checkElement table numbering e = .ok (e.stateVariable, value)) ∧
        e.stateVariable ∉ state.facts.map Prod.fst ∧ FitsTable table state' ∧
        (state'.facts.map Prod.fst).Perm (e.stateVariable :: state.facts.map Prod.fst) := by
  intro hadd
  obtain ⟨⟨v, value⟩, hcheck, -⟩ := bind_eq_ok.1 hadd
  obtain ⟨-, -, -, -, -, -, rfl⟩ := (checkElement_eq_ok hnodup).1 hcheck
  have hstep := add_of_checked hnodup hfits hcheck
  split at hstep
  · rw [hadd] at hstep
    cases hstep
  · rename_i hnew
    obtain ⟨final, hfinal, hfits', hperm⟩ := hstep
    rw [hadd] at hfinal
    cases hfinal
    exact ⟨⟨value, hcheck⟩, hnew, hfits', hperm.map Prod.fst⟩

/-- Elements that are accepted pass their own checks, and their variables are distinct, as far as
texts go. The state has a fact for each of these variables. -/
theorem checked_of_ofElements (hnodup : table.names.Nodup)
    (h : ofElements table numbering elements = .ok state) :
    FitsTable table state ∧
      (state.facts.map Prod.fst).Perm (elements.map InitialFact.stateVariable) ∧
      (elements.map InitialFact.stateVariable).Nodup ∧
      ∀ e ∈ elements, ∃ value, checkElement table numbering e = .ok (e.stateVariable, value) := by
  -- The invariant says of the elements that are done what is said here of all of them.
  refine foldlM_invariant (P := fun done state => FitsTable table state ∧
    (state.facts.map Prod.fst).Perm (done.map InitialFact.stateVariable) ∧
    (done.map InitialFact.stateVariable).Nodup ∧
    ∀ e ∈ done, ∃ value, checkElement table numbering e = .ok (e.stateVariable, value))
    ⟨fitsTable_emptyFor hnodup, by rw [facts_emptyFor]; exact .nil, .nil, by simp⟩ ?_ h
  rintro done e state state' - ⟨hfits, hperm, hdistinct, hchecked⟩ hadd
  obtain ⟨hcheck, hnew, hfits', hperm'⟩ := add_eq_ok hnodup hfits hadd
  rw [List.map_append, List.map_singleton]
  refine ⟨hfits', ?_, ?_, ?_⟩
  · exact (hperm'.trans (hperm.cons _)).trans (List.perm_append_singleton _ _).symm
  · rw [← List.concat_eq_append]
    exact hdistinct.concat (mt hperm.mem_iff.2 hnew)
  · intro e' he'
    rcases List.mem_append.1 he' with he' | he'
    · exact hchecked e' he'
    · rwa [List.mem_singleton.1 he']

/-- An element behind accepted ones is accepted if it passes its own check and no earlier element
has the same symbol and the same texts. -/
theorem ofElements_concat (hnodup : table.names.Nodup)
    (h : ofElements table numbering elements = .ok state) {e : InitialFact}
    (hcheck : ∃ value, checkElement table numbering e = .ok (e.stateVariable, value))
    (hnew : e.stateVariable ∉ elements.map InitialFact.stateVariable) :
    ∃ state', ofElements table numbering (elements ++ [e]) = .ok state' := by
  obtain ⟨hfits, hperm, -, -⟩ := checked_of_ofElements hnodup h
  obtain ⟨value, hcheck⟩ := hcheck
  have hstep := add_of_checked hnodup hfits hcheck
  rw [if_neg (mt hperm.mem_iff.1 hnew)] at hstep
  obtain ⟨state', hadd, -, -⟩ := hstep
  refine ⟨state', ?_⟩
  rw [ofElements] at h
  rw [ofElements, List.foldlM_append, h]
  show List.foldlM (add table numbering) state [e] = _
  rw [List.foldlM_cons, hadd]
  rfl

/-- An element gives its symbol the same value whatever its arguments are. -/
theorem valueOf_withArgs (s : Symbol) (e : InitialFact) (args : List String) :
    valueOf table s (e.withArgs args) = valueOf table s e := by
  cases e <;> rfl

/-- Texts that stand for the same are in the same domains. -/
theorem inDomain_congr {type arg arg' : String} (h : argumentOf type arg = argumentOf type arg')
    (harg : inDomain table type arg = true) : inDomain table type arg' = true := by
  rcases eq_or_spelledApart h with rfl | ⟨hnumeric, -, n, -, hn⟩
  · exact harg
  · rw [inDomain, if_pos hnumeric, hn]
    rfl

/-- Texts that stand for the same, one by one, are in the same domains. -/
theorem all_inDomain_congr {types args args' : List String} (hlength : args'.length = args.length)
    (h : List.zipWith argumentOf types args = List.zipWith argumentOf types args')
    (hargs : ((types.zip args).all fun (type, arg) => inDomain table type arg) = true) :
    ((types.zip args').all fun (type, arg) => inDomain table type arg) = true := by
  induction types generalizing args args' with
  | nil => rfl
  | cons type types ih =>
    cases args with
    | nil =>
      rw [List.length_eq_zero_iff.1 hlength]
      rfl
    | cons arg args =>
      obtain ⟨arg', args', rfl⟩ := List.exists_cons_of_length_eq_add_one hlength
      rw [List.zipWith_cons_cons, List.zipWith_cons_cons, List.cons.injEq] at h
      rw [List.zip_cons_cons, List.all_cons, Bool.and_eq_true] at hargs ⊢
      exact ⟨inDomain_congr h.1 hargs.1, ih (Nat.succ.inj hlength) h.2 hargs.2⟩

/-- Another spelling of an element about a symbol without handles passes the check as well. -/
theorem checkElement_withArgs (hnodup : table.names.Nodup) {e : InitialFact} {args : List String}
    (hblock : numbering.block? e.symbol = none) (hlength : args.length = e.args.length)
    (hrepeats : Repeats table e (e.withArgs args))
    (hcheck : ∃ value, checkElement table numbering e = .ok (e.stateVariable, value)) :
    ∃ value, checkElement table numbering (e.withArgs args)
      = .ok ((e.withArgs args).stateVariable, value) := by
  obtain ⟨value, hcheck⟩ := hcheck
  obtain ⟨s, hget, hne, harity, hvalue, hdomains, -⟩ := (checkElement_eq_ok hnodup).1 hcheck
  obtain ⟨-, s', hget', hsame⟩ := hrepeats
  obtain rfl : s = s' := Option.some.inj (hget.symm.trans hget')
  obtain ⟨-, hname⟩ := (SymbolTable.get?_eq_some hnodup).1 hget
  refine ⟨value, (checkElement_eq_ok hnodup).2 ⟨s, ?_, hne, ?_, ?_, ?_, rfl⟩⟩
  · rw [InitialFact.symbol_withArgs, hget]
  · rw [InitialFact.args_withArgs, hlength, harity]
  · rw [valueOf_withArgs, hvalue]
  · rw [InitialFact.symbol_withArgs, InitialFact.args_withArgs]
    rw [InitialFact.args_withArgs] at hsame
    -- Without handles, the arguments are checked against the listings.
    rw [inDomains, hname, hblock, if_neg (by simp)] at hdomains ⊢
    exact all_inDomain_congr hlength hsame hdomains

/-- Accepted elements that repeat a variable spell an integer differently. -/
theorem spellApart_of_repeats (hnodup : table.names.Nodup) {e e' : InitialFact}
    {value value' : Option FactValue}
    (hcheck : checkElement table numbering e = .ok (e.stateVariable, value))
    (hcheck' : checkElement table numbering e' = .ok (e'.stateVariable, value'))
    (hne : e.stateVariable ≠ e'.stateVariable) (hrepeats : Repeats table e e') :
    SpellApart table e e' := by
  obtain ⟨hsymbol, s, hget, hsame⟩ := hrepeats
  obtain ⟨s₁, hget₁, -, harity, -⟩ := (checkElement_eq_ok hnodup).1 hcheck
  obtain ⟨s₂, hget₂, -, harity', -⟩ := (checkElement_eq_ok hnodup).1 hcheck'
  obtain rfl : s = s₁ := Option.some.inj (hget.symm.trans hget₁)
  obtain rfl : s = s₂ := Option.some.inj (hget.symm.trans (hsymbol ▸ hget₂))
  have hargs : e.args ≠ e'.args := by
    intro hargs
    exact hne (by rw [InitialFact.stateVariable, InitialFact.stateVariable, hsymbol, hargs])
  obtain ⟨position, type, arg, arg', htype, harg, harg', hapart⟩ :=
    exists_spelledApart harity harity' hsame hargs
  exact ⟨s, position, type, arg, arg', hget, htype, harg, harg', hapart⟩

/-- Integers that are written plainly are not spelled differently. -/
theorem not_spelledApart {type arg arg' : String} (h : WrittenPlainly type arg)
    (h' : WrittenPlainly type arg') : ¬ SpelledApart type arg arg' := by
  rintro ⟨hnumeric, hne, n, hn, hn'⟩
  exact hne ((h hnumeric n hn).trans (h' hnumeric n hn').symm)

/-- What is written plainly everywhere is written plainly at each position. -/
theorem writtenPlainly_of_getElem? {types args : List String}
    (h : List.Forall₂ WrittenPlainly types args) {position : Nat} {type arg : String}
    (htype : types[position]? = some type) (harg : args[position]? = some arg) :
    WrittenPlainly type arg := by
  obtain ⟨hlt, rfl⟩ := List.getElem?_eq_some_iff.1 htype
  obtain ⟨hlt', rfl⟩ := List.getElem?_eq_some_iff.1 harg
  exact (List.forall₂_iff_get.1 h).2 position hlt hlt'

/-- Elements with plain integers do not spell one differently. -/
theorem not_spellApart {e e' : InitialFact} (hsymbol : e.symbol = e'.symbol)
    (h : ∀ s, table.get? e.symbol = some s → List.Forall₂ WrittenPlainly s.params e.args)
    (h' : ∀ s, table.get? e'.symbol = some s → List.Forall₂ WrittenPlainly s.params e'.args) :
    ¬ SpellApart table e e' := by
  rintro ⟨s, position, type, arg, arg', hget, htype, harg, harg', hapart⟩
  have hplain := writtenPlainly_of_getElem? (h s hget) htype harg
  have hplain' := writtenPlainly_of_getElem? (h' s (hsymbol ▸ hget)) htype harg'
  exact not_spelledApart hplain hplain' hapart

end Accepted

/-- No two accepted elements have the same symbol and the same texts as arguments, whatever the
numbering is. Those that give a symbol the same argument values spell an integer differently, so
none do if all integers are written plainly. Another spelling of an accepted element about a symbol
without handles is accepted behind them. -/
theorem ofElements_repeats {t : Task} {table : SymbolTable}
    (htable : SymbolTable.ofTask t = .ok table)
    {numbering : VariableNumbering} {elements : List InitialFact} {state : InitialState}
    (h : ofElements table numbering elements = .ok state) :
    (elements.map InitialFact.stateVariable).Nodup ∧
    (elements.Pairwise fun e e' => Repeats table e e' → SpellApart table e e') ∧
    ((∀ e ∈ elements, ∀ s, table.get? e.symbol = some s →
        List.Forall₂ WrittenPlainly s.params e.args) →
      elements.Pairwise fun e e' => ¬ Repeats table e e') ∧
    ∀ e ∈ elements, numbering.block? e.symbol = none → ∀ args, args.length = e.args.length →
      Repeats table e (e.withArgs args) →
      (e.withArgs args).stateVariable ∉ elements.map InitialFact.stateVariable →
      ∃ state', ofElements table numbering (elements ++ [e.withArgs args]) = .ok state' := by
  have hnodup := (SymbolTable.declares_of_ofTask htable).1.nodup
  obtain ⟨-, -, hdistinct, hchecked⟩ := checked_of_ofElements hnodup h
  have hapart : elements.Pairwise fun e e' => Repeats table e e' → SpellApart table e e' := by
    refine (List.pairwise_map.1 hdistinct).imp_of_mem fun he he' hne hrepeats => ?_
    obtain ⟨value, hcheck⟩ := hchecked _ he
    obtain ⟨value', hcheck'⟩ := hchecked _ he'
    exact spellApart_of_repeats hnodup hcheck hcheck' hne hrepeats
  refine ⟨hdistinct, hapart, fun hplain => ?_, ?_⟩
  · refine hapart.imp_of_mem fun {e e'} he he' hspelled hrepeats => ?_
    exact not_spellApart hrepeats.1 (hplain e he) (hplain e' he') (hspelled hrepeats)
  · intro e he hblock args hlength hrepeats hnew
    exact ofElements_concat hnodup h
      (checkElement_withArgs hnodup hblock hlength hrepeats (hchecked e he)) hnew

/-- A level that is given twice, in two spellings. -/
def twoSpellings : Task :=
  ⟨"levels", "one", [], [], [⟨"level", ["int"]⟩], [], [],
    [.atom "level" ["5"] false, .atom "level" ["05"] false], [], none⟩

/-- The elements of `twoSpellings` have different texts, and a third spelling is accepted behind
them. -/
theorem ofElements_repeats_level :
    ∃ table state state', SymbolTable.ofTask twoSpellings = .ok table ∧
      ofElements table .empty twoSpellings.init = .ok state ∧
      (twoSpellings.init.map InitialFact.stateVariable).Nodup ∧
      ofElements table .empty (twoSpellings.init ++ [.atom "level" ["+5"] false]) = .ok state' := by
  obtain ⟨table, htable⟩ : ∃ table, SymbolTable.ofTask twoSpellings = .ok table := ⟨_, rfl⟩
  obtain ⟨state, hstate⟩ : ∃ state, ofElements table .empty twoSpellings.init = .ok state := by
    cases htable
    exact ⟨_, rfl⟩
  obtain ⟨hdistinct, -, -, hmore⟩ := ofElements_repeats htable hstate
  have hrepeats : Repeats table (.atom "level" ["5"] false) (.atom "level" ["+5"] false) := by
    cases htable
    exact ⟨rfl, _, rfl, rfl⟩
  obtain ⟨state', hstate'⟩ := hmore (.atom "level" ["5"] false) List.mem_cons_self rfl ["+5"] rfl
    hrepeats (by decide)
  exact ⟨table, state, state', htable, hstate, hdistinct, hstate'⟩

/-- The elements of `twoSpellings` are accepted, and both say that the level is five. -/
theorem level_given_twice :
    ∃ table c numbering state, SymbolTable.ofTask twoSpellings = .ok table ∧
      Classification.ofActions twoSpellings.actions table = .ok c ∧
      VariableNumbering.ofSymbols table c .declaration = .ok numbering ∧
      ofElements table numbering twoSpellings.init = .ok state ∧
      twoSpellings.init = [.atom "level" ["5"] false, .atom "level" ["05"] false] ∧
      Repeats table (.atom "level" ["5"] false) (.atom "level" ["05"] false) :=
  ⟨_, _, _, _, rfl, rfl, rfl, rfl, rfl, rfl, _, rfl, rfl⟩

end InitialState

end Grounder
