import Grounder.Proofs.Renumbering
import Grounder.Proofs.StateVariable

/-!
# `Grounder.Proofs.VariableListing`: numberings that are read back from their listing

A listing is read line by line. It gives a numbering exactly when every line that is not blank gives
a variable and these variables can be registered in turn (`readLines_eq_ok`).

`ofListing_listing_iff` is about the listing of a numbering. The same variables come back under the
same handles exactly when all of them are listable. If they are, no line feed in a name disturbs the
lines, and every line gives its variable. Conversely, what was read from lines is readable, and so
the lines are again those of the variables, one by one.
-/

set_option autoImplicit false

namespace Grounder

namespace VariableNumbering

open Proofs.Support

/-- The lines of a listing that are not blank. -/
def filledLines (lines : List String) : List String :=
  lines.filter fun line => !Text.isBlankText line

/-- Lines are read exactly when those that are not blank give variables that can be registered one
after another. -/
theorem readLines_eq_ok {lines : List String} {numbering final : VariableNumbering}
    {number : Nat} :
    numbering.readLines number lines = .ok final ↔
      ∃ vs, List.Forall₂ (fun line v => StateVariable.parse line = .ok v) (filledLines lines) vs ∧
        numbering.registerAll vs = .ok final := by
  induction lines generalizing numbering number with
  | nil =>
    rw [readLines]
    constructor
    · intro h
      cases h
      exact ⟨[], .nil, rfl⟩
    · rintro ⟨vs, hvs, hfinal⟩
      cases hvs
      cases hfinal
      rfl
  | cons line rest ih =>
    rw [readLines, filledLines]
    by_cases hblank : Text.isBlankText line = true
    · rw [if_pos hblank, List.filter_cons_of_neg (by simp [hblank])]
      exact ih
    rw [if_neg hblank, List.filter_cons_of_pos (by simp [hblank])]
    constructor
    · -- The line has to give a variable, and that one has to be new.
      intro h
      split at h
      · cases h
      rename_i v hv
      split at h
      · cases h
      rename_i next hnext
      obtain ⟨vs, hvs, hfinal⟩ := ih.1 h
      refine ⟨v :: vs, .cons hv hvs, ?_⟩
      rw [registerAll, List.foldlM_cons, hnext]
      exact hfinal
    · rintro ⟨vs, hvs, hfinal⟩
      cases hvs with
      | @cons _ v _ vs hv hvs =>
        rw [registerAll, List.foldlM_cons] at hfinal
        obtain ⟨next, hnext, hfinal⟩ := bind_eq_ok.1 hfinal
        simp only [hv, hnext]
        exact ih.2 ⟨vs, hvs, hfinal⟩

/-- A text is read as a listing exactly when its filled lines give distinct variables, which then
get their handles in this order. -/
theorem ofListing_eq_ok {text : String} {vs : List StateVariable} :
    (∃ numbering, ofListing text = .ok numbering ∧ numbering.vars = vs) ↔
      List.Forall₂ (fun line v => StateVariable.parse line = .ok v)
        (filledLines (Text.lines text)) vs ∧ vs.Nodup := by
  constructor
  · rintro ⟨numbering, hread, rfl⟩
    obtain ⟨vs, hvs, hregister⟩ := readLines_eq_ok.1 hread
    have hvars : numbering.vars = vs := (registerAll_eq_ok hregister).1
    exact ⟨hvars ▸ hvs, numbering.nodup⟩
  · rintro ⟨hvs, hnodup⟩
    obtain ⟨numbering, hregister⟩ : ∃ numbering, empty.registerAll vs = .ok numbering :=
      exists_registerAll hnodup
    exact ⟨numbering, readLines_eq_ok.2 ⟨vs, hvs, hregister⟩, (registerAll_eq_ok hregister).1⟩

/-- The variables of a listing are readable. -/
theorem readable_of_mem_ofListing {text : String} {numbering : VariableNumbering}
    (h : ofListing text = .ok numbering) : ∀ v ∈ numbering.vars, v.Readable := by
  intro v hv
  obtain ⟨hlines, -⟩ := ofListing_eq_ok.1 ⟨numbering, h, rfl⟩
  obtain ⟨line, hline, hparse⟩ := exists_counterpart hlines hv
  have hmem : line ∈ Text.lines text := List.mem_of_mem_filter hline
  exact StateVariable.readable_of_parse hparse (feed_not_mem_of_mem_lines hmem)

/-- The lines of the listing of readable variables are their listing forms. -/
theorem lines_listing {numbering : VariableNumbering} (h : ∀ v ∈ numbering.vars, v.Readable) :
    Text.lines numbering.listing = numbering.vars.map StateVariable.text := by
  rw [listing]
  apply lines_unlines
  · intro text htext
    obtain ⟨v, hv, rfl⟩ := List.mem_map.1 htext
    have hargs : '\n' ∉ (",".intercalate v.args).toList :=
      not_mem_intercalate (by decide) (h v hv).no_feed_in_args
    rw [StateVariable.toList_text]
    simp only [List.mem_append, List.mem_cons, List.not_mem_nil, or_false, not_or]
    exact ⟨(h v hv).no_feed_in_symbol, by decide, hargs, by decide⟩
  · intro text htext
    obtain ⟨v, -, rfl⟩ := List.mem_map.1 htext
    rw [StateVariable.getLast?_text]
    decide

/-- No listing form is a blank line. -/
theorem filledLines_texts (vs : List StateVariable) :
    filledLines (vs.map StateVariable.text) = vs.map StateVariable.text := by
  rw [filledLines, List.filter_eq_self]
  intro text htext
  obtain ⟨v, -, rfl⟩ := List.mem_map.1 htext
  rw [StateVariable.isBlankText_text]
  rfl

/-- The listing of readable variables has a line for each of them, and no others. -/
theorem filledLines_listing {numbering : VariableNumbering}
    (h : ∀ v ∈ numbering.vars, v.Readable) :
    filledLines (Text.lines numbering.listing) = numbering.vars.map StateVariable.text := by
  rw [lines_listing h, filledLines_texts]

/-- A numbering is read back from its listing exactly when all its variables are listable: the
variables come back under the handles that they have. -/
theorem ofListing_listing_iff (numbering : VariableNumbering) :
    (∃ reloaded, ofListing numbering.listing = .ok reloaded ∧
      (∀ handle, reloaded.variableAt? handle = numbering.variableAt? handle) ∧
      ∀ v, reloaded.handle? v = numbering.handle? v) ↔
    ∀ v ∈ numbering.vars, v.Listable := by
  -- The handles of variables are their positions, so the lists of variables decide.
  have hsame : ∀ reloaded : VariableNumbering,
      ((∀ handle, reloaded.variableAt? handle = numbering.variableAt? handle) ∧
        ∀ v, reloaded.handle? v = numbering.handle? v) ↔ reloaded.vars = numbering.vars := by
    intro reloaded
    constructor
    · rintro ⟨hvariables, -⟩
      exact List.ext_getElem? hvariables
    · intro hvars
      unfold variableAt? VariableNumbering.handle?
      rw [hvars]
      exact ⟨fun _ => rfl, fun _ => rfl⟩
  simp only [hsame]
  constructor
  · rintro ⟨reloaded, hread, hvars⟩
    have hreadable := hvars ▸ readable_of_mem_ofListing hread
    obtain ⟨hlines, -⟩ := ofListing_eq_ok.1 ⟨reloaded, hread, hvars⟩
    rw [filledLines_listing hreadable, List.forall₂_map_left_iff, List.forall₂_same] at hlines
    intro v hv
    exact ⟨hreadable v hv, (StateVariable.parse_text_eq_iff (hreadable v hv)).1 (hlines v hv)⟩
  · intro hlistable
    have hreadable : ∀ v ∈ numbering.vars, v.Readable := fun v hv => (hlistable v hv).toReadable
    refine ofListing_eq_ok.2 ⟨?_, numbering.nodup⟩
    rw [filledLines_listing hreadable, List.forall₂_map_left_iff, List.forall₂_same]
    intro v hv
    exact (StateVariable.parse_text_eq_iff (hreadable v hv)).2 (hlistable v hv).args_ne_single_empty

end VariableNumbering

end Grounder
