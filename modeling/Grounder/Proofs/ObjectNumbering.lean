import Grounder.ObjectNumbering
import Grounder.Proofs.Support.Lists

/-!
# `Grounder.Proofs.ObjectNumbering`: ids and names

The id of a name is its position among distinct names, so ids lead to names and back
(`id?_eq_some`), and every object that a numbering was made of has one (`exists_id?_ofObjects`).
Objects that are declared again keep the id that they have (`ofObjects_eraseDups`).
-/

set_option autoImplicit false

namespace Grounder

namespace ObjectNumbering

variable {numbering : ObjectNumbering} {name : String} {id : Nat}

/-- Ids lead to names and back. -/
theorem id?_eq_some : numbering.id? name = some id ↔ numbering.name? id = some name :=
  Proofs.Support.idxOf?_eq_some_of_nodup numbering.nodup

/-- A name has an id if it is one of those that are numbered. -/
theorem exists_id?_iff : (∃ id, numbering.id? name = some id) ↔ name ∈ numbering.names := by
  rw [← Option.isSome_iff_exists, id?, List.isSome_idxOf?]

/-- After a name has been added, it is numbered, and so are all names from before. -/
theorem mem_names_insert {other : String} :
    other ∈ (numbering.insert name).names ↔ other ∈ numbering.names ∨ other = name := by
  unfold insert
  split
  · rename_i hmem
    constructor
    · exact Or.inl
    · rintro (h | rfl)
      · exact h
      · exact hmem
  · simp

/-- The names of a numbering are the truth values and the objects that it was made of. -/
theorem mem_names_ofObjects {objects : List String} :
    name ∈ (ofObjects objects).names ↔ name ∈ truthValues.names ∨ name ∈ objects := by
  rw [ofObjects]
  generalize truthValues = start
  induction objects generalizing start with
  | nil => simp
  | cons object objects ih =>
    rw [List.foldl_cons, ih, mem_names_insert, List.mem_cons, or_assoc]

/-- A name that is numbered already is not numbered again. -/
theorem insert_of_mem (h : name ∈ numbering.names) : numbering.insert name = numbering :=
  dif_pos h

/-- A name that is not numbered comes last. -/
theorem names_insert_of_not_mem (h : name ∉ numbering.names) :
    (numbering.insert name).names = numbering.names ++ [name] := by
  rw [insert, dif_neg h]

/-- A further object is added to the numbering of the others. -/
theorem ofObjects_concat (objects : List String) (object : String) :
    ofObjects (objects ++ [object]) = (ofObjects objects).insert object := by
  rw [ofObjects, List.foldl_append]
  rfl

/-- Repeated objects leave no trace in a numbering. -/
theorem ofObjects_eraseDups (objects : List String) :
    ofObjects objects.eraseDups = ofObjects objects := by
  induction objects using List.reverseRecOn with
  | nil => rfl
  | append_singleton objects object ih =>
    rw [Proofs.Support.eraseDups_concat, ofObjects_concat]
    by_cases h : object ∈ objects
    · rw [if_pos h, ih, insert_of_mem (mem_names_ofObjects.2 (Or.inr h))]
    · rw [if_neg h, ofObjects_concat, ih]

/-- Every object that a numbering was made of has an id. -/
theorem exists_id?_ofObjects {objects : List String} (h : name ∈ objects) :
    ∃ id, (ofObjects objects).id? name = some id :=
  exists_id?_iff.2 (mem_names_ofObjects.2 (Or.inr h))

end ObjectNumbering

end Grounder
