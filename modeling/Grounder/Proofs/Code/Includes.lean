import Grounder.Proofs.Code.Reader
import Grounder.Proofs.Template.Units
import Grounder.Proofs.Text.Lines

/-!
# `Grounder.Proofs.Code.Includes`: reading the included files back

A compiler of the generated code goes through the unit of all components line by line and includes
the file that a line names, up to the first quote. `includedPaths` reads a text this way. As long as
no line feed is hidden in a name, and no quote in the name of a file, it finds the files that the
unit was made with (`includedPaths_componentsUnitText`).
-/

set_option autoImplicit false

namespace Grounder

open Code Template

/-- The file that a line includes. Its name ends at a quote, and so holds none. -/
def includedPath? (line : List Char) : Option String :=
  match after? "#include \"".toList line with
  | some rest => if '"' ∈ rest then some (String.ofList (rest.takeWhile (· ≠ '"'))) else none
  | none => none

/-- The files that a text includes, line by line. -/
def includedPaths (content : String) : List String :=
  (content.toList.splitOn '\n').filterMap includedPath?

/-- The line that includes a file. -/
def includeLine (path : String) : String := "#include \"" ++ path ++ "\""

/-- The line that includes a file is read as that file if its name holds no quote. -/
theorem includedPath?_includeLine {path : String} (hquote : '"' ∉ path.toList) :
    includedPath? (includeLine path).toList = some path := by
  have htext : (includeLine path).toList = "#include \"".toList ++ (path.toList ++ ['"']) := by
    rw [includeLine, String.append_assoc, String.toList_append, String.toList_append]
    rfl
  have hstart : (path.toList ++ ['"']).takeWhile (· ≠ '"') = path.toList := by
    rw [List.takeWhile_append_of_pos, List.takeWhile_cons_of_neg (by decide), List.append_nil]
    intro c hc
    rw [decide_eq_true_iff]
    exact fun heq => hquote (heq ▸ hc)
  rw [includedPath?, htext, after?_append]
  show (if _ then _ else _) = _
  rw [if_pos (List.mem_append_right _ List.mem_cons_self), hstart, String.ofList_toList]

/-! ### The unit of all components -/

/-- The digits of a number hold no line feed. -/
theorem feed_not_mem_toString (n : Nat) : '\n' ∉ (toString n).toList :=
  Proofs.Support.not_mem_toString n (by decide)

/-- Joined texts hold a line feed only if one of them does. -/
theorem feed_not_mem_joined {texts : List String} (h : ∀ text ∈ texts, '\n' ∉ text.toList) :
    '\n' ∉ (CodeScope.joined texts).toList :=
  not_mem_intercalate (by decide) h

/-- The files that lines include. -/
theorem includedPaths_unlines {texts : List String} (h : ∀ text ∈ texts, '\n' ∉ text.toList) :
    includedPaths (Text.unlines texts) = texts.filterMap fun text => includedPath? text.toList := by
  rw [includedPaths, splitOn_unlines h, List.filterMap_append, List.filterMap_map]
  exact List.append_nil _

/-- The lines that include files, one for each file, or an empty one. -/
def includeLines (includes : List String) : List String :=
  if includes = [] then [""] else includes.map includeLine

/-- The lines that include files include these files. -/
theorem filterMap_includeLines {includes : List String}
    (hquote : ∀ path ∈ includes, '"' ∉ path.toList) :
    (includeLines includes).filterMap (fun text => includedPath? text.toList) = includes := by
  by_cases h : includes = []
  · rw [includeLines, if_pos h, h]
    rfl
  · have hread : ∀ path ∈ includes,
        ((fun text => includedPath? text.toList) ∘ includeLine) path = some path :=
      fun path hpath => includedPath?_includeLine (hquote path hpath)
    rw [includeLines, if_neg h, List.filterMap_map, List.filterMap_congr hread,
      List.filterMap_some]

/-- Joined lines that include files are these lines, up to the last line feed. -/
theorem intercalate_includeLine (includes : List String) :
    "\n".intercalate (includes.map includeLine) ++ "\n" = Text.unlines (includeLines includes) := by
  cases includes with
  | nil => rfl
  | cons path rest => exact (unlines_eq_intercalate _ _).symm

/-- A line that includes a file holds a line feed only if the file's name does. -/
theorem feed_not_mem_includeLines {includes : List String}
    (h : ∀ path ∈ includes, '\n' ∉ path.toList) :
    ∀ text ∈ includeLines includes, '\n' ∉ text.toList := by
  intro text htext
  rw [includeLines] at htext
  split at htext
  · rw [List.mem_singleton.1 htext]
    exact List.not_mem_nil
  · obtain ⟨path, hpath, rfl⟩ := List.mem_map.1 htext
    simp [includeLine, h path hpath]

/-- The unit of all components includes the files that it was made with, if no line feed is hidden
in a slot and no quote in the name of a file. -/
theorem includedPaths_componentsUnitText
    {domain instanceName size actions constraints stateConstraints : String}
    {includes : List String}
    (h : ∀ text ∈ domain :: instanceName :: size :: actions :: constraints ::
      stateConstraints :: includes, '\n' ∉ text.toList)
    (hquote : ∀ path ∈ includes, '"' ∉ path.toList) :
    includedPaths (componentsUnitText domain instanceName
      ("\n".intercalate (includes.map includeLine)) size actions constraints
      stateConstraints) = includes := by
  simp only [List.forall_mem_cons] at h
  obtain ⟨hdomain, hinstance, hvariables, hactions, hconstraints, hstate, hincludes⟩ := h
  -- The includes stand between lines of other kinds.
  let above := ["// Generated by groundwork for " ++ domain ++ "/" ++ instanceName
    ++ ". Do not edit.", "#pragma once", ""]
  let below := ["", "constexpr unsigned NUM_STATE_VARIABLES = " ++ size ++ ";",
    "constexpr unsigned NUM_ACTIONS = " ++ actions ++ ";",
    "constexpr unsigned NUM_CONSTRAINTS = " ++ constraints ++ ";", "",
    "// Instantiations that must hold in every state.",
    "constexpr unsigned STATE_CONSTRAINTS[] = \x7b" ++ stateConstraints ++ "\x7d;"]
  have hcontent : componentsUnitText domain instanceName
      ("\n".intercalate (includes.map includeLine)) size actions constraints stateConstraints
        = Text.unlines (above ++ (includeLines includes ++ below)) := by
    show Text.unlines (above ++ (["\n".intercalate (includes.map includeLine)] ++ below)) = _
    rw [unlines_append, unlines_append, unlines_append, unlines_append,
      ← intercalate_includeLine,
      unlines_eq_intercalate ("\n".intercalate (includes.map includeLine)) [],
      String.intercalate_singleton]
  -- No line above or below includes a file, and no line holds a line feed.
  have habove : above.filterMap (fun text => includedPath? text.toList) = [] := by
    simp [above, includedPath?, after?]
  have hbelow : below.filterMap (fun text => includedPath? text.toList) = [] := by
    simp [below, includedPath?, after?]
  have hlines : ∀ text ∈ above ++ (includeLines includes ++ below), '\n' ∉ text.toList := by
    have habove : ∀ text ∈ above, '\n' ∉ text.toList := by
      simp [above, hdomain, hinstance]
    have hbelow : ∀ text ∈ below, '\n' ∉ text.toList := by
      simp [below, hvariables, hactions, hconstraints, hstate]
    intro text htext
    rcases List.mem_append.1 htext with htext | htext
    · exact habove text htext
    · rcases List.mem_append.1 htext with htext | htext
      · exact feed_not_mem_includeLines hincludes text htext
      · exact hbelow text htext
  rw [hcontent, includedPaths_unlines hlines, List.filterMap_append, List.filterMap_append,
    filterMap_includeLines hquote, habove, hbelow, List.nil_append, List.append_nil]

end Grounder
