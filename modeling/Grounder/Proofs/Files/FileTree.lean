import Grounder.Files.FileTree

/-!
# `Grounder.Proofs.Files.FileTree`: what a change leaves as it was

Changes of a tree never take a directory away, and they leave all files alone but those that they
are about. `Keeps touched tree tree'` says so of a tree and what became of it, where `touched` tells
the locations whose files may differ. It goes through a sequence of changes (`Keeps.trans`), so each
operation needs a lemma only: `keeps_write?`, `keeps_removeFile?`, and `keeps_createDirectories`,
which touches no file.
-/

set_option autoImplicit false

namespace Grounder

namespace FileTree

variable {tree tree' : FileTree} {place other : Location} {entry : FileEntry}
  {content : FileContent} {path : String}

/-! ### Entries -/

/-- Entries of other locations play no part in a lookup. -/
theorem lookup_filter_ne (entries : List (Location × FileEntry)) (h : other ≠ place) :
    (entries.filter (·.1 ≠ place)).lookup other = entries.lookup other := by
  induction entries with
  | nil => rfl
  | cons first rest ih =>
    by_cases hfirst : first.1 = place
    · have hne : (other == first.1) = false := beq_false_of_ne (hfirst ▸ h)
      rw [List.filter_cons_of_neg (by simpa using hfirst), ih, List.lookup_cons, hne]
    · rw [List.filter_cons_of_pos (by simpa using hfirst), List.lookup_cons, List.lookup_cons, ih]

/-- A lookup finds nothing where there is no entry. -/
theorem lookup_filter_self (entries : List (Location × FileEntry)) :
    (entries.filter (·.1 ≠ place)).lookup place = none := by
  rw [List.lookup_eq_none_iff]
  intro entry hentry
  simpa using Ne.symm (of_decide_eq_true (List.mem_filter.1 hentry).2)

/-- What was put at a location other than the root is there. -/
theorem entryAt?_set_self (h : place ≠ []) :
    (tree.set place entry).entryAt? place = some entry := by
  rw [entryAt?, if_neg h]
  show List.lookup place ((place, entry) :: _) = _
  rw [List.lookup_cons_self]

/-- What is put at a location changes no other one. -/
theorem entryAt?_set_of_ne (h : other ≠ place) :
    (tree.set place entry).entryAt? other = tree.entryAt? other := by
  unfold entryAt?
  show (if other = [] then _ else List.lookup other ((place, entry) :: _)) = _
  rw [List.lookup_cons, beq_false_of_ne h]
  show (if other = [] then _ else List.lookup other (tree.entries.filter (·.1 ≠ place))) = _
  rw [lookup_filter_ne _ h]

/-- Nothing is left at a location other than the root after it was erased. -/
theorem entryAt?_erase_self (h : place ≠ []) : (tree.erase place).entryAt? place = none := by
  rw [entryAt?, if_neg h]
  exact lookup_filter_self tree.entries

/-- What is erased at a location changes no other one. -/
theorem entryAt?_erase_of_ne (h : other ≠ place) :
    (tree.erase place).entryAt? other = tree.entryAt? other := by
  unfold entryAt?
  show (if other = [] then _ else List.lookup other (tree.entries.filter (·.1 ≠ place))) = _
  rw [lookup_filter_ne _ h]

/-- What is not a directory is not the root. -/
theorem ne_nil_of_not_isDirectoryAt (h : tree.isDirectoryAt place = false) : place ≠ [] := by
  rintro rfl
  cases h

/-! ### Files -/

/-- What the file at a location holds. -/
def fileAt? (tree : FileTree) (place : Location) : Option FileContent :=
  match tree.entryAt? place with
  | some (.file content) => some content
  | _ => none

/-- There is a file exactly if the entry says so. -/
theorem fileAt?_eq_some : tree.fileAt? place = some content ↔
    tree.entryAt? place = some (.file content) := by
  unfold fileAt?
  cases tree.entryAt? place with
  | none => simp
  | some entry => cases entry <;> simp

/-- A location with a file is no directory. -/
theorem isDirectoryAt_of_fileAt? (h : tree.fileAt? place = some content) :
    tree.isDirectoryAt place = false := by
  rw [isDirectoryAt, fileAt?_eq_some.1 h]
  rfl

/-- Trees with the same entry at a location have the same file there. -/
theorem fileAt?_congr (h : tree'.entryAt? place = tree.entryAt? place) :
    tree'.fileAt? place = tree.fileAt? place := by
  rw [fileAt?, fileAt?, h]

/-- A path leads to a file exactly if there is one at its location. -/
theorem isFile_eq_true : tree.isFile path = true ↔ ∃ place content,
    tree.locate? path = some place ∧ tree.fileAt? place = some content := by
  unfold isFile find? fileAt?
  cases hlocate : tree.locate? path with
  | none => simp
  | some place =>
    rw [Option.bind_some]
    cases hentry : tree.entryAt? place with
    | none => simp [hentry]
    | some entry => cases entry <;> simp [hentry]

/-- The text at a path is that of the file at its location. -/
theorem readText?_eq (hlocate : tree.locate? path = some place) :
    tree.readText? path = match tree.fileAt? place with
      | some (.text s) => some s
      | _ => none := by
  unfold readText? find? fileAt?
  rw [hlocate, Option.bind_some]
  cases tree.entryAt? place with
  | none => rfl
  | some entry =>
    cases entry with
    | directory => rfl
    | file content => cases content <;> rfl

/-! ### What is kept -/

/-- What became of a tree that has the same current directory, still has all directories, and has
the same files except at touched locations. -/
structure Keeps (touched : Location → Prop) (tree tree' : FileTree) : Prop where
  current : tree'.current = tree.current
  directories : ∀ place, tree.isDirectoryAt place = true → tree'.isDirectoryAt place = true
  files : ∀ place, ¬ touched place → tree'.fileAt? place = tree.fileAt? place

variable {touched touched' : Location → Prop}

/-- A tree keeps everything that it has. -/
theorem Keeps.refl (touched : Location → Prop) (tree : FileTree) : Keeps touched tree tree :=
  ⟨rfl, fun _ h => h, fun _ _ => rfl⟩

/-- What two changes keep, both together keep. -/
theorem Keeps.trans {tree'' : FileTree} (h : Keeps touched tree tree')
    (h' : Keeps touched tree' tree'') : Keeps touched tree tree'' := by
  constructor
  · rw [h'.current, h.current]
  · intro place hplace
    exact h'.directories place (h.directories place hplace)
  · intro place hplace
    rw [h'.files place hplace, h.files place hplace]

/-- A change may be said to touch more than it does. -/
theorem Keeps.mono (h : Keeps touched tree tree') (hsub : ∀ place, touched place → touched' place) :
    Keeps touched' tree tree' :=
  ⟨h.current, h.directories, fun place hplace => h.files place fun ht => hplace (hsub place ht)⟩

/-- A change that touches no file may be said to touch any. -/
theorem Keeps.untouched (h : Keeps (fun _ => False) tree tree') : Keeps touched tree tree' :=
  h.mono fun _ => False.elim

/-- Apart from what happens to files, a change keeps all directories. -/
theorem Keeps.forget (h : Keeps touched tree tree') : Keeps (fun _ => True) tree tree' :=
  h.mono fun _ _ => trivial

/-- A change at a location that is no directory touches only this location. -/
theorem keeps_of_entryAt? (hcurrent : tree'.current = tree.current)
    (hplace : tree.isDirectoryAt place = false)
    (hothers : ∀ other, other ≠ place → tree'.entryAt? other = tree.entryAt? other) :
    Keeps (· = place) tree tree' := by
  refine ⟨hcurrent, fun other hdirectory => ?_, fun other hother => ?_⟩
  · have hne : other ≠ place := by
      rintro rfl
      rw [hplace] at hdirectory
      cases hdirectory
    rw [isDirectoryAt, hothers other hne]
    exact hdirectory
  · exact fileAt?_congr (hothers other hother)

/-! ### Changes -/

/-- Writing puts a file where the path leads, unless a directory is there. -/
theorem write?_eq_some : tree.write? path content = some tree' ↔ ∃ place,
    tree.locate? path = some place ∧ tree.isDirectoryAt place = false ∧
      tree' = tree.set place (.file content) := by
  unfold write?
  cases hlocate : tree.locate? path with
  | none => simp
  | some place =>
    cases hdirectory : tree.isDirectoryAt place with
    | true => simp [hdirectory]
    | false =>
      simp only [Bool.false_eq_true, if_false, Option.some.injEq, exists_eq_left', hdirectory,
        true_and]
      exact eq_comm

/-- A written file is where the path leads, and nothing else has changed. -/
theorem keeps_write? (h : tree.write? path content = some tree') : ∃ place,
    tree.locate? path = some place ∧ tree'.fileAt? place = some content ∧
      Keeps (· = place) tree tree' := by
  obtain ⟨place, hlocate, hplace, rfl⟩ := write?_eq_some.1 h
  refine ⟨place, hlocate, ?_, ?_⟩
  · exact fileAt?_eq_some.2 (entryAt?_set_self (ne_nil_of_not_isDirectoryAt hplace))
  · exact keeps_of_entryAt? rfl hplace fun other hother => entryAt?_set_of_ne hother

/-- Removing a file takes away what the path leads to, unless no file is there. -/
theorem removeFile?_eq_some : tree.removeFile? path = some tree' ↔ ∃ place content,
    tree.locate? path = some place ∧ tree.fileAt? place = some content ∧
      tree' = tree.erase place := by
  unfold removeFile? fileAt?
  cases hlocate : tree.locate? path with
  | none => simp
  | some place =>
    cases hentry : tree.entryAt? place with
    | none => simp [hentry]
    | some entry => cases entry <;> simp [hentry, eq_comm]

/-- A removed file is gone from where the path leads, and nothing else has changed. -/
theorem keeps_removeFile? (h : tree.removeFile? path = some tree') : ∃ place,
    tree.locate? path = some place ∧ tree'.fileAt? place = none ∧
      Keeps (· = place) tree tree' := by
  obtain ⟨place, content, hlocate, hfile, rfl⟩ := removeFile?_eq_some.1 h
  have hplace := isDirectoryAt_of_fileAt? hfile
  refine ⟨place, hlocate, ?_, ?_⟩
  · rw [fileAt?, entryAt?_erase_self (ne_nil_of_not_isDirectoryAt hplace)]
  · exact keeps_of_entryAt? rfl hplace fun other hother => entryAt?_erase_of_ne hother

/-- A file can be removed. -/
theorem exists_removeFile? (h : tree.isFile path = true) :
    ∃ tree', tree.removeFile? path = some tree' := by
  obtain ⟨place, content, hlocate, hfile⟩ := isFile_eq_true.1 h
  exact ⟨_, removeFile?_eq_some.2 ⟨place, content, hlocate, hfile, rfl⟩⟩

/-- A new directory is where the pieces of the path lead, except for empty ones at the end. -/
theorem createDirectory?_eq_some (h : tree.createDirectory? path = some tree') :
    isUsable path = true ∧ ∃ front behind place, Path.pieces path.toList = front ++ behind ∧
      front ≠ [] ∧ (∀ piece ∈ behind, piece = "") ∧
      front.foldlM tree.step? (tree.start path) = some place ∧
      tree.entryAt? place = none ∧ tree' = tree.set place .directory := by
  unfold createDirectory? at h
  dsimp only at h
  split at h
  · cases h
  rename_i name above hpieces
  split at h
  · cases h
  rename_i hname
  split at h
  · cases h
  rename_i place hplace
  split at h
  · cases h
  rename_i habsent
  simp only [Bool.or_eq_true, Bool.not_eq_true', not_or, Bool.not_eq_false] at hname
  refine ⟨hname.1.1, above.reverse ++ [name],
    ((Path.pieces path.toList).reverse.takeWhile (· = "")).reverse, place, ?_, by simp, ?_, hplace,
    by simpa using habsent, (Option.some.inj h).symm⟩
  · have hwhole := List.takeWhile_append_dropWhile (p := (· = ""))
      (l := (Path.pieces path.toList).reverse)
    rw [hpieces] at hwhole
    generalize (Path.pieces path.toList).reverse.takeWhile (· = "") = behind at hwhole
    rw [← List.reverse_reverse (Path.pieces path.toList), ← hwhole]
    simp
  · intro piece hpiece
    simpa using List.all_eq_true.1 List.all_takeWhile piece (List.mem_reverse.1 hpiece)

/-- A new directory touches no file. -/
theorem keeps_createDirectory? (h : tree.createDirectory? path = some tree') :
    Keeps (fun _ => False) tree tree' := by
  obtain ⟨-, front, behind, place, -, -, -, -, habsent, rfl⟩ := createDirectory?_eq_some h
  have hplace : tree.isDirectoryAt place = false := by
    rw [isDirectoryAt, habsent]
    rfl
  have hkeeps : Keeps (· = place) tree (tree.set place .directory) :=
    keeps_of_entryAt? rfl hplace fun other hother => entryAt?_set_of_ne hother
  refine ⟨hkeeps.current, hkeeps.directories, fun other _ => ?_⟩
  -- Where the directory is now, there was nothing before, and in particular no file.
  by_cases hother : other = place
  · rw [hother, fileAt?, fileAt?, entryAt?_set_self (ne_nil_of_not_isDirectoryAt hplace), habsent]
  · exact hkeeps.files other hother

/-- Making directories touches no file, whether all of them can be made or not. -/
theorem keeps_ensureAll (paths : List String) :
    Keeps (fun _ => False) tree (tree.ensureAll paths).2 := by
  induction paths generalizing tree with
  | nil => exact Keeps.refl _ tree
  | cons path paths ih =>
    rw [ensureAll, ensureDirectory?]
    by_cases hdirectory : tree.isDirectory path = true
    · rw [if_pos hdirectory]
      exact ih
    · rw [if_neg hdirectory]
      cases hcreate : tree.createDirectory? path with
      | none => exact Keeps.refl _ tree
      | some tree' => exact (keeps_createDirectory? hcreate).trans ih

/-- Making a directory and all above it touches no file. -/
theorem keeps_createDirectories (tree : FileTree) (path : String) :
    Keeps (fun _ => False) tree (tree.createDirectories path).2 := by
  unfold createDirectories
  split
  · exact Keeps.refl _ tree
  split
  · exact Keeps.refl _ tree
  · exact keeps_ensureAll _

end FileTree

end Grounder
