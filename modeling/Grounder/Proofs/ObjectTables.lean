import Grounder.Proofs.ObjectNumbering
import Grounder.Proofs.Text.Lines

/-!
# `Grounder.Proofs.ObjectTables`: ids and names are inverse to each other

The names of a numbering are the truth values and then the objects in the order in which they first
occur, without repetitions (`names_ofObjects`). The id of a name is its position, and further
objects come behind all others (`names_prefix_ofObjects`).

A program that looks up both directions quickly holds two tables, an array of the names and a hash
map of the ids, and writes both when it inserts a name (`ObjectTables`). `Shows` says that the
tables say what a numbering says. One insertion keeps it (`Shows.insert`), and so do all of them
(`shows_ofObjects`).

The listing has one line for each name, so that ids are line numbers, exactly if no name breaks its
line (`listing_lines_iff`). `ids_names_bijective` collects all of this.
-/

set_option autoImplicit false

namespace Grounder

namespace ObjectNumbering

open Proofs.Support

variable {numbering : ObjectNumbering} {name : String} {id : Nat}

/-! ### Names in order -/

/-- The names that were numbered before come first. -/
theorem names_prefix_insert (numbering : ObjectNumbering) (name : String) :
    numbering.names <+: (numbering.insert name).names := by
  by_cases h : name ∈ numbering.names
  · exact ⟨[], by rw [insert_of_mem h, List.append_nil]⟩
  · rw [names_insert_of_not_mem h]
    exact List.prefix_append _ _

/-- The names are the truth values and then the remaining objects in the order in which they first
occur. -/
theorem names_ofObjects (objects : List String) : (ofObjects objects).names =
    truthValues.names ++ (objects.filter (· ∉ truthValues.names)).eraseDups := by
  induction objects using List.reverseRecOn with
  | nil => rfl
  | append_singleton objects object ih =>
    rw [ofObjects_concat, List.filter_append]
    by_cases htoken : object ∈ truthValues.names
    · -- Truth values are numbered from the start.
      rw [insert_of_mem (mem_names_ofObjects.2 (Or.inl htoken)), ih]
      simp [htoken]
    · have hkept : [object].filter (· ∉ truthValues.names) = [object] := by simp [htoken]
      rw [hkept, eraseDups_concat]
      by_cases hobject : object ∈ objects
      · rw [insert_of_mem (mem_names_ofObjects.2 (Or.inr hobject)), ih,
          if_pos (List.mem_filter.2 ⟨hobject, decide_eq_true htoken⟩)]
      · have hnew : object ∉ (ofObjects objects).names := by
          rw [mem_names_ofObjects, not_or]
          exact ⟨htoken, hobject⟩
        rw [names_insert_of_not_mem hnew, ih, List.append_assoc,
          if_neg fun hmem => hobject (List.mem_filter.1 hmem).1]

/-- Further objects come behind the names that are there. -/
theorem names_prefix_ofObjects (objects more : List String) :
    (ofObjects objects).names <+: (ofObjects (objects ++ more)).names := by
  induction more using List.reverseRecOn with
  | nil => exact ⟨[], by rw [List.append_nil, List.append_nil]⟩
  | append_singleton more object ih =>
    rw [← List.append_assoc, ofObjects_concat]
    exact ih.trans (names_prefix_insert _ object)

/-- Further objects leave the ids of the others as they are. -/
theorem id?_ofObjects_append {objects : List String} (h : (ofObjects objects).id? name = some id)
    (more : List String) : (ofObjects (objects ++ more)).id? name = some id := by
  rw [id?_eq_some] at h ⊢
  obtain ⟨hlt, hget⟩ := List.getElem?_eq_some_iff.1 h
  rw [name?, List.prefix_iff_getElem?.1 (names_prefix_ofObjects objects more) id hlt, hget]

/-! ### Lines -/

/-- Cut at the line feeds, the listing has every name on the line with its id exactly if no name
holds a line feed. -/
theorem listing_lines_iff (numbering : ObjectNumbering) :
    (∀ id name, numbering.name? id = some name →
        (numbering.listing.toList.splitOn '\n')[id]? = some name.toList) ↔
      ∀ name ∈ numbering.names, '\n' ∉ name.toList := by
  constructor
  · intro h name hname
    obtain ⟨id, hid⟩ := List.mem_iff_getElem?.1 hname
    -- A name that is a line is a piece between line feeds.
    exact not_mem_of_mem_splitOn (List.mem_of_getElem? (h id name hid))
  · intro h id name hid
    obtain ⟨hlt, hget⟩ := List.getElem?_eq_some_iff.1 hid
    rw [listing, splitOn_unlines h, List.getElem?_append_left (by rwa [List.length_map]),
      List.getElem?_map, List.getElem?_eq_getElem hlt, hget]
    rfl

/-! ### Two tables -/

/-- The two directions of a numbering, each in a table of its own. -/
structure ObjectTables where
  names : Array String
  ids : Std.HashMap String Nat

namespace ObjectTables

/-- The tables with a name added to both, unless the map has it. -/
def insert (tables : ObjectTables) (name : String) : ObjectTables :=
  if tables.ids.contains name then tables
  else ⟨tables.names.push name, tables.ids.insert name tables.names.size⟩

/-- The tables of the truth values and a list of objects. -/
def ofObjects (objects : List String) : ObjectTables :=
  objects.foldl insert ([boolToken false, boolToken true].foldl insert ⟨#[], ∅⟩)

/-- One name per line, appended to what was written before. -/
def listing (tables : ObjectTables) : String :=
  tables.names.foldl (fun text name => (text ++ name).push '\n') ""

/-- Both tables say what a numbering says. -/
structure Shows (tables : ObjectTables) (numbering : ObjectNumbering) : Prop where
  names : tables.names.toList = numbering.names
  ids : ∀ name, tables.ids[name]? = numbering.id? name

variable {tables : ObjectTables}

/-- Empty tables show the numbering without names. -/
theorem shows_empty : Shows ⟨#[], ∅⟩ ⟨[], .nil⟩ := by
  refine ⟨rfl, fun name => ?_⟩
  simp [id?]

/-- The map has the names that are numbered. -/
theorem Shows.contains_iff (h : tables.Shows numbering) :
    tables.ids.contains name = true ↔ name ∈ numbering.names :=
  contains_positions_iff h.ids

/-- One more name keeps the tables in step with the numbering. -/
theorem Shows.insert (h : tables.Shows numbering) (name : String) :
    (tables.insert name).Shows (numbering.insert name) := by
  by_cases hname : name ∈ numbering.names
  · rw [ObjectTables.insert, if_pos (h.contains_iff.2 hname), insert_of_mem hname]
    exact h
  rw [ObjectTables.insert, if_neg (mt h.contains_iff.1 hname)]
  have hnames := names_insert_of_not_mem hname
  have hsize : tables.names.size = numbering.names.length := by
    rw [← h.names, Array.length_toList]
  refine ⟨by rw [Array.toList_push, h.names, hnames], fun other => ?_⟩
  rw [hsize, id?, hnames]
  exact getElem?_insert_positions h.ids hname other

/-- All insertions keep the tables in step with the numbering. -/
theorem Shows.foldl_insert (h : tables.Shows numbering) (names : List String) :
    (names.foldl ObjectTables.insert tables).Shows
      (names.foldl ObjectNumbering.insert numbering) := by
  induction names generalizing tables numbering with
  | nil => exact h
  | cons name names ih => exact ih (h.insert name)

/-- The tables of some objects show the numbering of these objects. -/
theorem shows_ofObjects (objects : List String) :
    (ofObjects objects).Shows (ObjectNumbering.ofObjects objects) := by
  have htokens : [boolToken false, boolToken true].foldl ObjectNumbering.insert ⟨[], .nil⟩
      = truthValues := rfl
  have htruth := shows_empty.foldl_insert [boolToken false, boolToken true]
  rw [htokens] at htruth
  exact htruth.foldl_insert objects

/-- Names that are appended one after another are the lines of the listing. -/
theorem Shows.listing_eq (h : tables.Shows numbering) : tables.listing = numbering.listing := by
  have hunlines (names : List String) (text : String) :
      names.foldl (fun text name => (text ++ name).push '\n') text
        = text ++ Text.unlines names := by
    induction names generalizing text with
    | nil => exact String.append_empty.symm
    | cons name names ih =>
      rw [List.foldl_cons, ih, unlines_cons, String.push_eq_append]
      simp only [String.append_assoc]
      rfl
  rw [listing, ← Array.foldl_toList, h.names, hunlines, String.empty_append]
  rfl

end ObjectTables

/-! ### The bijection -/

/-- The names are the truth values and then the remaining objects in the order in which they first
occur. Every number below the size is the id of the name that it leads to, the id of a name leads
back to it, and exactly these names have one. Further objects leave all ids as they are. Every name
is the line with its id exactly if no name holds a line feed. Two tables, each written on its own,
say the same. -/
theorem ids_names_bijective (objects : List String) :
    (ofObjects objects).names = "_false_" :: "_true_" ::
      (objects.filter (· ∉ ["_false_", "_true_"])).eraseDups ∧
    (∀ id < (ofObjects objects).size, ∃ name, (ofObjects objects).name? id = some name ∧
      (ofObjects objects).id? name = some id) ∧
    (∀ name id, (ofObjects objects).id? name = some id →
      id < (ofObjects objects).size ∧ (ofObjects objects).name? id = some name) ∧
    (∀ name, (∃ id, (ofObjects objects).id? name = some id) ↔ name ∈ (ofObjects objects).names) ∧
    (∀ more name id, (ofObjects objects).id? name = some id →
      (ofObjects (objects ++ more)).id? name = some id) ∧
    ((∀ id name, (ofObjects objects).name? id = some name →
        ((ofObjects objects).listing.toList.splitOn '\n')[id]? = some name.toList) ↔
      ∀ name ∈ (ofObjects objects).names, '\n' ∉ name.toList) ∧
    (ObjectTables.ofObjects objects).Shows (ofObjects objects) ∧
    (ObjectTables.ofObjects objects).listing = (ofObjects objects).listing := by
  have hshows := ObjectTables.shows_ofObjects objects
  refine ⟨names_ofObjects objects, fun id hlt => ?_, fun name id hid => ?_,
    fun name => exists_id?_iff, fun more name id hid => id?_ofObjects_append hid more,
    listing_lines_iff _, hshows, hshows.listing_eq⟩
  · have hname := List.getElem?_eq_getElem hlt
    exact ⟨_, hname, id?_eq_some.2 hname⟩
  · have hname := id?_eq_some.1 hid
    exact ⟨(List.getElem?_eq_some_iff.1 hname).1, hname⟩

/-- Truth values and repeated objects are passed over. -/
example : (ofObjects ["a", "_true_", "b", "a"]).names = ["_false_", "_true_", "a", "b"] := by
  decide

end ObjectNumbering

end Grounder
