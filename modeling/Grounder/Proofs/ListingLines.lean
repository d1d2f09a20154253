import Grounder.Proofs.Relisting

/-!
# `Grounder.Proofs.ListingLines`: which lines make a listing

A listing is read line by line, and a line can go wrong in two ways. It may be no variable though it
is not blank, or it may give a variable that an earlier line has given, perhaps in another spelling
(`Offends`). Nothing else is wrong with a text: it is read exactly if no line offends
(`exists_ofListing_iff`), and otherwise the first line that does is reported
(`offends_of_ofListing`).

`ofListing_by_lines` states this line by line, with the grammar of a single line. Blank lines count
in the number of a line but not in a handle, and two lines are compared by what they give.
-/

set_option autoImplicit false

namespace Grounder

open Proofs.Support

/-- A line that gives a variable is not blank. -/
theorem StateVariable.isBlankText_of_parse {line : String} {v : StateVariable}
    (h : parse line = .ok v) : Text.isBlankText line = false := by
  obtain ⟨symbol, inner, hcs, -⟩ := parse_eq_ok.1 h
  exact Text.isBlankText_of_mem (Text.trimChars_subset _ (by simp [hcs])) (c := '(') (by decide)

/-- A line gives a variable exactly if, but for the white space around it, there is something in
front of its first opening parenthesis, and a closing one at the end of what comes after that. -/
theorem StateVariable.exists_parse_iff (line : String) :
    (∃ v, parse line = .ok v) ↔
      ∃ front back, (Text.trim line).toList = front ++ '(' :: back ∧ '(' ∉ front ∧ front ≠ [] ∧
        back.getLast? = some ')' := by
  rw [Text.trim, String.toList_ofList]
  constructor
  · rintro ⟨v, hv⟩
    obtain ⟨symbol, inner, hcs, hopening, hne, -⟩ := parse_eq_ok.1 hv
    exact ⟨symbol, inner ++ [')'], hcs, hopening, hne, List.getLast?_concat⟩
  · rintro ⟨front, back, hcs, hopening, hne, hlast⟩
    obtain ⟨inner, rfl⟩ := List.getLast?_eq_some_iff.1 hlast
    exact ⟨_, parse_eq_ok.2 ⟨front, inner, hcs, hopening, hne, rfl⟩⟩

namespace VariableNumbering

/-- Two lines that do not give the same variable. -/
def Apart (line line' : String) : Prop :=
  ∀ v, StateVariable.parse line = .ok v → StateVariable.parse line' ≠ .ok v

/-- What is wrong with the line at a position, after the lines in front of it. -/
inductive Offends (lines : List String) (position : Nat) : LineFault → Prop where
  /-- The line is not blank, and gives no variable. -/
  | unreadable {line : String} {e : StateVariable.ParseError}
      (hline : lines[position]? = some line) (hfilled : Text.isBlankText line = false)
      (hparse : StateVariable.parse line = .error e) : Offends lines position (.parse e)
  /-- The line gives a variable that an earlier line gives. -/
  | repeated {line line' : String} {v : StateVariable} {earlier : Nat}
      (hline : lines[position]? = some line) (hparse : StateVariable.parse line = .ok v)
      (hearlier : earlier < position) (hline' : lines[earlier]? = some line')
      (hparse' : StateVariable.parse line' = .ok v) :
      Offends lines position (.register (.duplicateRegistration v))

/-- The line at a position offends, and none in front of it does. -/
structure IsFirstOffence (lines : List String) (position : Nat) (fault : LineFault) : Prop where
  offends : Offends lines position fault
  first : ∀ earlier < position, ∀ fault', ¬ Offends lines earlier fault'

variable {lines : List String} {position : Nat} {fault fault' : LineFault} {text : String}
  {numbering : VariableNumbering}

/-! ### Offences -/

/-- There is one thing wrong with a line. -/
theorem Offends.unique (h : Offends lines position fault) (h' : Offends lines position fault') :
    fault = fault' := by
  cases h with
  | unreadable hline _ hparse =>
    cases h' with
    | unreadable hline' _ hparse' => grind
    | repeated hline' hparse' => grind
  | repeated hline hparse =>
    cases h' with
    | unreadable hline' _ hparse' => grind
    | repeated hline' hparse' => grind

/-- What is wrong with a line does not depend on the lines after it. -/
theorem Offends.of_append {before after : List String} (h : Offends (before ++ after) position fault)
    (hlt : position < before.length) : Offends before position fault := by
  cases h with
  | unreadable hline hfilled hparse =>
    rw [List.getElem?_append_left hlt] at hline
    exact .unreadable hline hfilled hparse
  | repeated hline hparse hearlier hline' hparse' =>
    rw [List.getElem?_append_left hlt] at hline
    rw [List.getElem?_append_left (by omega)] at hline'
    exact .repeated hline hparse hearlier hline' hparse'

/-- There is one first offence. -/
theorem IsFirstOffence.unique {position' : Nat} (h : IsFirstOffence lines position fault)
    (h' : IsFirstOffence lines position' fault') : position = position' ∧ fault = fault' := by
  rcases Nat.lt_trichotomy position position' with hlt | rfl | hlt
  · exact absurd h.offends (h'.first _ hlt fault)
  · exact ⟨rfl, h.offends.unique h'.offends⟩
  · exact absurd h'.offends (h.first _ hlt fault')

/-- No line offends if all that are not blank give variables, which are different. -/
theorem forall_not_offends_iff :
    (∀ position fault, ¬ Offends lines position fault) ↔
      (∀ line ∈ filledLines lines, ∃ v, StateVariable.parse line = .ok v) ∧
        (filledLines lines).Pairwise Apart := by
  -- Blank lines give nothing, so they can be counted among the lines that are apart.
  have hpairwise : (filledLines lines).Pairwise Apart ↔ lines.Pairwise Apart := by
    rw [filledLines, List.pairwise_filter]
    refine ⟨fun h => h.imp fun {line line'} happart v hv hv' => ?_,
      fun h => h.imp fun happart _ _ => happart⟩
    exact happart (by simp [StateVariable.isBlankText_of_parse hv])
      (by simp [StateVariable.isBlankText_of_parse hv']) v hv hv'
  rw [hpairwise]
  constructor
  · intro h
    constructor
    · intro line hline
      obtain ⟨hmem, hfilled⟩ := List.mem_filter.1 hline
      obtain ⟨position, hget⟩ := List.getElem?_of_mem hmem
      cases hparse : StateVariable.parse line with
      | ok v => exact ⟨v, rfl⟩
      | error e => exact absurd (.unreadable hget (by simpa using hfilled) hparse) (h position _)
    · rw [List.pairwise_iff_getElem]
      intro earlier position hearlier hposition hlt v hv hv'
      exact h position _ (.repeated (List.getElem?_eq_getElem hposition) hv' hlt
        (List.getElem?_eq_getElem hearlier) hv)
  · rintro ⟨hparses, happart⟩ position fault hoffends
    cases hoffends with
    | unreadable hline hfilled hparse =>
      obtain ⟨v, hv⟩ := hparses _ (List.mem_filter.2 ⟨List.mem_of_getElem? hline, by simp [hfilled]⟩)
      rw [hparse] at hv
      cases hv
    | repeated hline hparse hearlier hline' hparse' =>
      obtain ⟨hlt, rfl⟩ := List.getElem?_eq_some_iff.1 hline
      obtain ⟨hlt', rfl⟩ := List.getElem?_eq_some_iff.1 hline'
      exact List.pairwise_iff_getElem.1 happart _ _ hlt' hlt hearlier _ hparse' hparse

/-! ### Reading -/

/-- Lines that give variables give different ones if they are apart. -/
theorem nodup_iff_pairwise_apart {vs : List StateVariable}
    (h : List.Forall₂ (fun line v => StateVariable.parse line = .ok v) lines vs) :
    vs.Nodup ↔ lines.Pairwise Apart := by
  induction h with
  | nil => simp
  | @cons line v rest vs hv hvs ih =>
    rw [List.nodup_cons, List.pairwise_cons, ih]
    refine and_congr_left fun _ => ?_
    constructor
    · intro hnew line' hline' v' hv' hline'v'
      obtain ⟨w, hw, hparse⟩ := exists_counterpart hvs.flip hline'
      rw [hv] at hv'
      rw [hparse] at hline'v'
      cases hv'
      cases hline'v'
      exact hnew hw
    · intro happart hmem
      obtain ⟨line', hline', hparse⟩ := exists_counterpart hvs hmem
      exact happart line' hline' v hv hparse

/-- Lines give different variables exactly if none of them offends. -/
theorem exists_listed_iff :
    (∃ vs, List.Forall₂ (fun line v => StateVariable.parse line = .ok v) (filledLines lines) vs ∧
      vs.Nodup) ↔ ∀ position fault, ¬ Offends lines position fault := by
  rw [forall_not_offends_iff]
  constructor
  · rintro ⟨vs, hvs, hnodup⟩
    refine ⟨fun line hline => ?_, (nodup_iff_pairwise_apart hvs).1 hnodup⟩
    obtain ⟨v, -, hv⟩ := exists_counterpart hvs.flip hline
    exact ⟨v, hv⟩
  · rintro ⟨hparses, happart⟩
    obtain ⟨vs, hvs⟩ := exists_mapM_eq_ok hparses
    rw [mapM_eq_ok] at hvs
    exact ⟨vs, hvs, (nodup_iff_pairwise_apart hvs).2 happart⟩

/-- A text is read exactly if no line offends. -/
theorem exists_ofListing_iff :
    (∃ numbering, ofListing text = .ok numbering) ↔
      ∀ position fault, ¬ Offends (Text.lines text) position fault := by
  rw [← exists_listed_iff]
  simp only [← ofListing_eq_ok]
  exact ⟨fun ⟨numbering, h⟩ => ⟨_, numbering, h, rfl⟩, fun ⟨_, numbering, h, _⟩ => ⟨numbering, h⟩⟩

/-- A text that is not read is refused for its first offence. -/
theorem offends_of_ofListing {e : ListingError} (h : ofListing text = .error e) :
    ∃ position, e.line = position + 1 ∧ IsFirstOffence (Text.lines text) position e.fault := by
  obtain ⟨before, line, after, reached, hlines, hread, hnumber, hfilled, hfault⟩ :=
    readLines_eq_error h
  -- The lines in front were read, so none of them offends.
  obtain ⟨vs, hvs, hregister⟩ := readLines_eq_ok.1 hread
  have hvars : reached.vars = vs := (registerAll_eq_ok hregister).1
  have hsound := exists_listed_iff.1 ⟨vs, hvs, hvars ▸ reached.nodup⟩
  have hget : (Text.lines text)[before.length]? = some line := by simp [hlines]
  refine ⟨before.length, by omega, ?_, fun earlier hearlier fault' hoffends => ?_⟩
  · rcases hfault with ⟨fault, hparse, hfault⟩ | ⟨v, hparse, hmem, hfault⟩
    · rw [hfault]
      exact .unreadable hget hfilled hparse
    · obtain ⟨line', hline', hparse'⟩ := exists_counterpart hvs (hvars ▸ hmem)
      obtain ⟨earlier, hget'⟩ := List.getElem?_of_mem (List.mem_of_mem_filter hline')
      have hlt : earlier < before.length := (List.getElem?_eq_some_iff.1 hget').1
      rw [hfault]
      refine .repeated hget hparse hlt ?_ hparse'
      rw [hlines, List.getElem?_append_left hlt, hget']
  · rw [hlines] at hoffends
    exact hsound earlier fault' (hoffends.of_append hearlier)

/-- A text is refused with an error exactly if the error is the first offence. -/
theorem ofListing_eq_error_iff {e : ListingError} :
    ofListing text = .error e ↔
      ∃ position, e.line = position + 1 ∧ IsFirstOffence (Text.lines text) position e.fault := by
  refine ⟨offends_of_ofListing, ?_⟩
  rintro ⟨position, hnumber, hfirst⟩
  cases hread : ofListing text with
  | ok numbering =>
    exact absurd hfirst.offends (exists_ofListing_iff.1 ⟨numbering, hread⟩ position e.fault)
  | error e' =>
    obtain ⟨position', hnumber', hfirst'⟩ := offends_of_ofListing hread
    obtain ⟨rfl, hfault⟩ := hfirst.unique hfirst'
    -- Errors for the same line and with the same fault are the same.
    have hsame : e' = e := by
      cases e
      cases e'
      simp_all
    rw [hsame]

/-- A text is read as a listing exactly if every line that is not blank gives a variable and no two
of them give the same one. Then the handles follow these lines, and there are no blocks. Otherwise
the message names the first line that offends, by its number among all lines. -/
theorem ofListing_by_lines (text : String) :
    ((∃ numbering, ofListing text = .ok numbering) ↔
      (∀ line ∈ filledLines (Text.lines text), ∃ v, StateVariable.parse line = .ok v) ∧
        (filledLines (Text.lines text)).Pairwise Apart) ∧
    (∀ numbering, ofListing text = .ok numbering →
      numbering.blocks = [] ∧ numbering.size = (filledLines (Text.lines text)).length ∧
      ∀ handle line, (filledLines (Text.lines text))[handle]? = some line →
        ∃ v, StateVariable.parse line = .ok v ∧ numbering.variableAt? handle = some v) ∧
    (∀ e, ofListing text = .error e ↔
      ∃ position, IsFirstOffence (Text.lines text) position e.fault ∧ e.line = position + 1 ∧
        e.message = "line " ++ toString (position + 1) ++ ": " ++ e.fault.message) ∧
    ∀ line, (∃ v, StateVariable.parse line = .ok v) ↔
      ∃ front back, (Text.trim line).toList = front ++ '(' :: back ∧ '(' ∉ front ∧ front ≠ [] ∧
        back.getLast? = some ')' := by
  refine ⟨?_, fun numbering h => ?_, fun e => ?_, StateVariable.exists_parse_iff⟩
  · rw [exists_ofListing_iff, forall_not_offends_iff]
  · obtain ⟨hlines, -⟩ := ofListing_eq_ok.1 ⟨numbering, h, rfl⟩
    refine ⟨blocks_of_ofListing h, hlines.length_eq.symm, fun handle line hline => ?_⟩
    obtain ⟨hlt, rfl⟩ := List.getElem?_eq_some_iff.1 hline
    have hlt' : handle < numbering.vars.length := hlines.length_eq ▸ hlt
    exact ⟨_, (List.forall₂_iff_get.1 hlines).2 handle hlt hlt', List.getElem?_eq_getElem hlt'⟩
  · rw [ofListing_eq_error_iff]
    refine exists_congr fun position => ?_
    constructor
    · rintro ⟨hnumber, hfirst⟩
      exact ⟨hfirst, hnumber, by rw [ListingError.message, hnumber]⟩
    · rintro ⟨hfirst, hnumber, -⟩
      exact ⟨hnumber, hfirst⟩

/-- The third line repeats the first one in another spelling, past a blank line. -/
example : (ofListing "p(a)\r\n\np( a)").map (·.vars)
    = .error ⟨3, .register (.duplicateRegistration ⟨"p", ["a"]⟩)⟩ := by
  decide +kernel

end VariableNumbering

end Grounder
