import Grounder.Proofs.Files.Path
import Mathlib.Data.List.Induction

/-!
# `Grounder.Proofs.Files.FileName`: files that are named after something

A file `folder/name.ext` can be named after any text, and the text may hold slashes. Then its pieces
are pieces of the path, but for the last one, which the extension is attached to
(`exists_pieces_file`). So the path is plain exactly when the text does not climb, that is, when no
piece before its last one stands for the parent directory, and it leads below the folder
(`IsFileOf`).
-/

set_option autoImplicit false

namespace Grounder.Path

/-- A text that leaves a directory in which a file is named after it: `..` is one of its pieces, and
not the last one, which the extension makes a name of its own. -/
def Climbs (name : String) : Prop := ".." ∈ (pieces name.toList).dropLast

instance (name : String) : Decidable (Climbs name) :=
  inferInstanceAs (Decidable (_ ∈ _))

/-! ### Pieces -/

/-- A text without slashes is one piece. -/
theorem pieces_of_not_mem {cs : List Char} (h : '/' ∉ cs) : pieces cs = [String.ofList cs] := by
  rw [pieces, List.splitOn_eq_singleton h]
  rfl

/-- What is appended to a path is appended to its last piece, up to the next slash. -/
theorem exists_pieces_append (cs : List Char) :
    ∃ above last, ∀ ext, '/' ∉ ext → pieces (cs ++ ext) = above ++ [String.ofList (last ++ ext)] := by
  -- The last piece begins after the last slash, so the path is taken apart from its end.
  induction cs using List.reverseRec with
  | nil => exact ⟨[], [], fun ext hext => pieces_of_not_mem hext⟩
  | append_singleton cs c ih =>
    obtain ⟨above, last, hpieces⟩ := ih
    by_cases hc : c = '/'
    · subst hc
      refine ⟨pieces cs, [], fun ext hext => ?_⟩
      rw [List.append_assoc, List.singleton_append, pieces_append_slash, pieces_of_not_mem hext,
        List.nil_append]
    · refine ⟨above, last ++ [c], fun ext hext => ?_⟩
      rw [List.append_assoc, List.append_assoc, List.singleton_append]
      exact hpieces (c :: ext) fun hmem => (List.mem_cons.1 hmem).elim (fun h => hc h.symm) hext

/-- The folders that files are named in. -/
def folders : List String := ["actions", "constraints", "static"]

/-- The extensions of files that are named after something. -/
def extensions : List String := [".hxx", ".data"]

/-- A folder is one piece, which leads down. -/
theorem folders_spec : ∀ folder ∈ folders,
    '/' ∉ folder.toList ∧ folder ≠ ".." ∧ isSkipped folder = false := by
  decide

variable {folder ext : String}

/-- The pieces of a file that is named after a text are the folder and those of the text, the last
one of them with the extension. -/
theorem exists_pieces_file (hfolder : folder ∈ folders) (hext : ext ∈ extensions) (name : String) :
    ∃ last, pieces name.toList = (pieces name.toList).dropLast ++ [last] ∧
      pieces (folder ++ "/" ++ name ++ ext).toList
        = folder :: ((pieces name.toList).dropLast ++ [last ++ ext]) := by
  obtain ⟨hfolderSlash, -, -⟩ := folders_spec folder hfolder
  have hextSlash : '/' ∉ ext.toList := by
    revert ext
    decide
  obtain ⟨above, last, hpieces⟩ := exists_pieces_append name.toList
  have hname : pieces name.toList = above ++ [String.ofList last] := by
    simpa using hpieces [] List.not_mem_nil
  have habove : (pieces name.toList).dropLast = above := by
    rw [hname, List.dropLast_concat]
  refine ⟨String.ofList last, by rw [habove, hname], ?_⟩
  have htext : (folder ++ "/" ++ name ++ ext).toList
      = folder.toList ++ '/' :: (name.toList ++ ext.toList) := by
    simp [String.toList_append]
  rw [htext, pieces_append_slash, pieces_of_not_mem hfolderSlash, hpieces _ hextSlash, habove,
    String.ofList_toList, String.ofList_append, String.ofList_toList]
  rfl

/-- An extension makes a name of any last piece. -/
theorem append_extension (hext : ext ∈ extensions) (last : String) :
    last ++ ext ≠ ".." ∧ isSkipped (last ++ ext) = false := by
  have hlength : 4 ≤ (last ++ ext).length := by
    have hext4 : 4 ≤ ext.length := by
      revert ext
      decide
    rw [String.length_append]
    omega
  refine ⟨?_, ?_⟩
  · intro h
    rw [h] at hlength
    revert hlength
    decide
  · rw [isSkipped, Bool.or_eq_false_iff]
    refine ⟨decide_eq_false fun h => ?_, decide_eq_false fun h => ?_⟩
    · rw [h] at hlength
      revert hlength
      decide
    · rw [h] at hlength
      revert hlength
      decide

/-! ### What the path is like -/

/-- How a path in a folder begins. -/
theorem split_file (hfolder : folder ∈ folders) (rest : String) :
    split (folder ++ rest) = ("", pieces (folder ++ rest).toList) := by
  obtain ⟨c, cs, hcs, hslash, hdot⟩ :
      ∃ c cs, folder.toList = c :: cs ∧ c ≠ '/' ∧ c ≠ '.' := by
    simp only [folders, List.mem_cons, List.not_mem_nil, or_false] at hfolder
    rcases hfolder with rfl | rfl | rfl
    · exact ⟨'a', _, rfl, by decide, by decide⟩
    · exact ⟨'c', _, rfl, by decide, by decide⟩
    · exact ⟨'s', _, rfl, by decide, by decide⟩
  rw [split, String.toList_append, hcs, List.cons_append]
  split
  · rename_i h
    exact absurd (List.cons.inj h).1 hslash
  · rename_i h
    exact absurd (List.cons.inj h).1 hdot
  · rename_i h
    exact absurd (List.cons.inj h).1 hdot
  · rfl

/-- A path to a file in a folder, where the file is named after a text. -/
structure IsFileOf (folder name path : String) : Prop where
  /-- The path is relative. -/
  relative : isAbsolute path = false
  /-- It is plain exactly when the text does not climb. -/
  plain : isPlain path = true ↔ ¬ Climbs name
  /-- Without what it skips, it is below the folder. -/
  below : ∃ above last, steps path = folder :: (above ++ [last])

/-- The first step leads into the folder. -/
theorem IsFileOf.head?_steps {name path : String} (h : IsFileOf folder name path) :
    (steps path).head? = some folder := by
  obtain ⟨above, last, hsteps⟩ := h.below
  rw [hsteps]
  rfl

/-- The path has more than one step. -/
theorem IsFileOf.steps_ne {name path : String} (h : IsFileOf folder name path) (step : String) :
    steps path ≠ [] ∧ steps path ≠ [step] := by
  obtain ⟨above, last, hsteps⟩ := h.below
  rw [hsteps]
  simp

/-- A file is at a plain path exactly when the text that it is named after does not climb. -/
theorem isPlain_file (hfolder : folder ∈ folders) (hext : ext ∈ extensions) (name : String) :
    isPlain (folder ++ "/" ++ name ++ ext) = true ↔ ¬ Climbs name := by
  obtain ⟨last, -, hpieces⟩ := exists_pieces_file hfolder hext name
  have hsplit := split_file hfolder ("/" ++ name ++ ext)
  have htext : folder ++ ("/" ++ name ++ ext) = folder ++ "/" ++ name ++ ext := by
    simp only [String.append_assoc]
  obtain ⟨-, hparent, -⟩ := folders_spec folder hfolder
  rw [htext, hpieces] at hsplit
  rw [isPlain, hsplit, Climbs]
  simp only [decide_true, Bool.true_and, List.all_cons, List.all_append, List.all_nil,
    Bool.and_true, Bool.and_eq_true, decide_eq_true_eq, List.all_eq_true]
  constructor
  · rintro ⟨-, habove, -⟩ hclimbs
    exact habove ".." hclimbs rfl
  · intro hclimbs
    refine ⟨hparent, fun piece hpiece hne => hclimbs (hne ▸ hpiece), (append_extension hext last).1⟩

/-- A file is below its folder. -/
theorem exists_steps_file (hfolder : folder ∈ folders) (hext : ext ∈ extensions) (name : String) :
    ∃ below last, steps (folder ++ "/" ++ name ++ ext) = folder :: (below ++ [last ++ ext]) := by
  obtain ⟨last, -, hpieces⟩ := exists_pieces_file hfolder hext name
  obtain ⟨-, -, hkept⟩ := folders_spec folder hfolder
  refine ⟨(pieces name.toList).dropLast.filter fun piece => !isSkipped piece, last, ?_⟩
  rw [steps, hpieces, List.filter_cons, List.filter_append]
  simp [hkept, (append_extension hext last).2]

/-- A folder, a text and an extension make the path of a file. -/
theorem isFileOf_file (hfolder : folder ∈ folders) (hext : ext ∈ extensions) (name : String) :
    IsFileOf folder name (folder ++ "/" ++ name ++ ext) := by
  refine ⟨?_, isPlain_file hfolder hext name, ?_⟩
  · rw [String.append_assoc, String.append_assoc]
    exact (split_of_start_eq_empty (by rw [split_file hfolder])).1
  · obtain ⟨above, last, hsteps⟩ := exists_steps_file hfolder hext name
    exact ⟨above, last ++ ext, hsteps⟩

/-- A text without slashes does not climb, and the file of this name is right in its folder. -/
theorem steps_file_of_not_mem (hfolder : folder ∈ folders) (hext : ext ∈ extensions) {name : String}
    (h : '/' ∉ name.toList) :
    ¬ Climbs name ∧ steps (folder ++ "/" ++ name ++ ext) = [folder, name ++ ext] := by
  have hname := pieces_of_not_mem h
  rw [String.ofList_toList] at hname
  obtain ⟨last, hlast, hpieces⟩ := exists_pieces_file hfolder hext name
  rw [hname] at hlast hpieces
  obtain rfl : name = last := by simpa using hlast
  obtain ⟨-, -, hkept⟩ := folders_spec folder hfolder
  refine ⟨by simp [Climbs, hname], ?_⟩
  rw [steps, hpieces]
  simp [hkept, (append_extension hext name).2]

end Grounder.Path
