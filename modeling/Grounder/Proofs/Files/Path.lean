import Grounder.Proofs.Files.FileTree
import Grounder.Proofs.Text.Lines

/-!
# `Grounder.Proofs.Files.Path`: where paths lead

A path leads from piece to piece, and each piece is looked up in a directory (`follow?`). A path
that is joined to a directory leads on from where the directory is (`follow?_join`), and if it is
plain, its names alone tell how (`locate?_join`). Directories that stay keep every path alive
(`Keeps.locate?`).

Making a directory succeeds only if the path leads to a directory afterwards
(`leadsTo_of_createDirectories`), and fails only if it does not
(`not_leadsTo_of_createDirectories`): all paths above lead to directories if the path itself does.
-/

set_option autoImplicit false

namespace Grounder

namespace Path

variable {path base name : String}

/-! ### Pieces -/

/-- The pieces of a path that are not skipped. -/
def steps (path : String) : Location := (pieces path.toList).filter fun piece => !isSkipped piece

/-- There is always a piece, even in the empty path. -/
theorem pieces_ne_nil (cs : List Char) : pieces cs ≠ [] := by
  intro h
  exact List.splitOn_ne_nil '/' cs (List.map_eq_nil_iff.1 h)

/-- Where two paths meet at a slash, their pieces go one after the other. -/
theorem pieces_append_slash (cs cs' : List Char) :
    pieces (cs ++ '/' :: cs') = pieces cs ++ pieces cs' := by
  rw [pieces, splitOn_append_cons, List.map_append]
  rfl

/-- A path that starts with nothing is relative, and its pieces come after nothing. -/
theorem split_of_start_eq_empty (h : (split path).1 = "") :
    isAbsolute path = false ∧ (split path).2 = pieces path.toList := by
  unfold split at h ⊢
  unfold isAbsolute
  split
  · rename_i hcs
    simp [hcs] at h
  · rename_i hcs
    simp [hcs] at h
  · rename_i hcs
    simp [hcs] at h
  · rename_i hroot _ _
    refine ⟨decide_eq_false fun hhead => ?_, rfl⟩
    obtain ⟨rest, hrest⟩ := List.head?_eq_some_iff.1 hhead
    exact hroot rest hrest

/-- A plain path is relative, and does not lead to parent directories. -/
theorem isPlain_spec (h : isPlain path = true) :
    isAbsolute path = false ∧ ".." ∉ pieces path.toList := by
  obtain ⟨hstart, hrest⟩ := Bool.and_eq_true_iff.1 h
  obtain ⟨hrelative, hpieces⟩ := split_of_start_eq_empty (of_decide_eq_true hstart)
  refine ⟨hrelative, fun hparent => ?_⟩
  rw [← hpieces] at hparent
  simpa using List.all_eq_true.1 hrest ".." hparent

/-- A relative path is joined to a directory by a slash, which may be there already. -/
theorem toList_join (h : isAbsolute name = false) (hbase : base ≠ "") :
    ∃ above, (join base name).toList = above ++ '/' :: name.toList ∧
      (base.toList = above ∨ base.toList = above ++ ['/']) := by
  have hempty : base.isEmpty = false := by simpa using hbase
  simp only [join, h, hempty, Bool.false_or, Bool.false_eq_true, if_false, decide_eq_true_eq]
  by_cases hslash : base.toList.getLast? = some '/'
  · obtain ⟨above, habove⟩ := List.getLast?_eq_some_iff.1 hslash
    refine ⟨above, ?_, Or.inr habove⟩
    rw [if_pos hslash, String.toList_append, habove, List.append_assoc]
    rfl
  · refine ⟨base.toList, ?_, Or.inl rfl⟩
    rw [if_neg hslash, String.toList_append, String.toList_append, List.append_assoc]
    rfl

/-- A joined path is at least as long as its parts together. -/
theorem le_utf8ByteSize_join (base : String) (h : isAbsolute name = false) :
    base.utf8ByteSize + name.utf8ByteSize ≤ (join base name).utf8ByteSize := by
  unfold join
  rw [h, if_neg (by simp)]
  split
  · exact Nat.le_of_eq String.utf8ByteSize_append.symm
  · rw [String.utf8ByteSize_append, String.utf8ByteSize_append]
    omega

/-! ### Paths above a path -/

/-- Pieces that slashes separate make up the path again. -/
theorem intercalate_pieces (cs : List Char) : "/".intercalate (pieces cs) = String.ofList cs := by
  apply String.toList_inj.1
  have hchars : String.toList ∘ String.ofList = id := funext fun _ => String.toList_ofList
  rw [String.toList_intercalate, pieces, List.map_map, hchars, List.map_id]
  exact (List.intercalate_splitOn '/').trans String.toList_ofList.symm

/-- A slash stands between the pieces before and the pieces after it. -/
theorem intercalate_append {before after : List String} (hbefore : before ≠ [])
    (hafter : after ≠ []) :
    "/".intercalate (before ++ after) = "/".intercalate before ++ "/" ++ "/".intercalate after := by
  induction before with
  | nil => exact absurd rfl hbefore
  | cons piece before ih =>
    cases before with
    | nil =>
      obtain ⟨piece', after, rfl⟩ := List.exists_cons_of_ne_nil hafter
      rw [String.intercalate_singleton]
      exact String.intercalate_cons_cons
    | cons piece' before =>
      rw [String.intercalate_cons_cons, List.cons_append, List.cons_append,
        String.intercalate_cons_cons, ← List.cons_append, ih (by simp)]
      simp only [String.append_assoc]

/-- A path is what it starts from and its pieces. -/
theorem split_spec (path : String) :
    path = (split path).1 ++ "/".intercalate (split path).2 := by
  apply String.toList_inj.1
  unfold split
  split <;> rename_i hcs <;> simp [intercalate_pieces, hcs]

/-- A path above is what the whole path starts from, or ends at one of the pieces before. -/
theorem mem_pathsAbove {start : String} {above : List String} (h : path ∈ pathsAbove start above) :
    path = start ∧ start ≠ "" ∨
      ∃ before after, before ≠ [] ∧ before ++ after = above.reverse ∧
        path = start ++ "/".intercalate before := by
  induction above with
  | nil =>
    rw [pathsAbove] at h
    split at h
    · cases h
    · rename_i hstart
      exact Or.inl ⟨List.mem_singleton.1 h, hstart⟩
  | cons piece above ih =>
    have hrest : path ∈ pathsAbove start above → path = start ∧ start ≠ "" ∨
        ∃ before after, before ≠ [] ∧ before ++ after = (piece :: above).reverse ∧
          path = start ++ "/".intercalate before := by
      intro h
      rcases ih h with h | ⟨before, after, hne, hsplit, hpath⟩
      · exact Or.inl h
      · refine Or.inr ⟨before, after ++ [piece], hne, ?_, hpath⟩
        rw [List.reverse_cons, ← hsplit, List.append_assoc]
    rw [pathsAbove] at h
    split at h
    · exact hrest h
    · rcases List.mem_cons.1 h with h | h
      · exact Or.inr ⟨(piece :: above).reverse, [], by simp, by simp, h⟩
      · exact hrest h

/-- No path above is empty. -/
theorem ne_empty_of_mem_pathsAbove {start : String} {above : List String}
    (h : path ∈ pathsAbove start above) : path ≠ "" := by
  induction above with
  | nil =>
    rw [pathsAbove] at h
    split at h
    · cases h
    · rename_i hstart
      rw [List.mem_singleton.1 h]
      exact hstart
  | cons piece above ih =>
    rw [pathsAbove] at h
    split at h
    · exact ih h
    rename_i hskipped
    rcases List.mem_cons.1 h with rfl | h
    · have hpiece : piece ≠ "" := by
        rintro rfl
        exact hskipped (by decide)
      intro hempty
      rw [List.reverse_cons] at hempty
      -- Either there is no other piece, or there is a slash.
      by_cases habove : above.reverse = []
      · rw [habove, List.nil_append, String.intercalate_singleton] at hempty
        simp [hpiece] at hempty
      · rw [intercalate_append habove (by simp)] at hempty
        simp at hempty
    · exact ih h

/-- A path above is the root, or what stands in front of a slash. -/
theorem mem_ancestors {above : String} (h : above ∈ ancestors path) :
    above = "/" ∧ isAbsolute path = true ∨
      above ≠ "" ∧ ∃ behind, path.toList = above.toList ++ '/' :: behind := by
  unfold ancestors at h
  dsimp only at h
  split at h
  · cases h
  rename_i last rest hpieces
  -- The paths above lack at least the last piece that is not skipped.
  obtain ⟨after, hafter, hall⟩ : ∃ after, after ≠ [] ∧ (split path).2 = rest.reverse ++ after := by
    have hwhole := List.takeWhile_append_dropWhile (p := isSkipped) (l := (split path).2.reverse)
    rw [hpieces] at hwhole
    generalize (split path).2.reverse.takeWhile isSkipped = skipped at hwhole
    refine ⟨last :: skipped.reverse, by simp, ?_⟩
    rw [← List.reverse_reverse (split path).2, ← hwhole]
    simp
  have hne := ne_empty_of_mem_pathsAbove h
  rcases mem_pathsAbove h with ⟨habove, hstart⟩ | ⟨before, between, hbefore, hsplit, habove⟩
  · clear hpieces
    unfold split at habove hstart hall
    split at habove
    · rename_i hcs
      exact Or.inl ⟨habove, by simp [isAbsolute, hcs]⟩
    · rename_i hcs
      simp [hcs] at hall
      exact absurd hall.2 hafter
    · rename_i behind hcs
      refine Or.inr ⟨hne, behind, ?_⟩
      rw [hcs, show above = "." from habove]
      rfl
    · exact absurd habove hne
  · refine Or.inr ⟨hne, ("/".intercalate (between ++ after)).toList, ?_⟩
    have hpieces : "/".intercalate (split path).2
        = "/".intercalate before ++ "/" ++ "/".intercalate (between ++ after) := by
      rw [← intercalate_append hbefore (by simp [hafter]), ← List.append_assoc, hsplit, hall]
    have hpath := congrArg String.toList (split_spec path)
    rw [hpieces, ← String.append_assoc, ← String.append_assoc, ← habove, String.toList_append,
      String.toList_append, List.append_assoc] at hpath
    exact hpath

end Path

namespace FileTree

open Grounder.Path

variable {tree tree' : FileTree} {touched : Location → Prop} {path dir name : String}
  {place next : Location}

/-! ### Following -/

/-- Where the pieces of a path lead, whatever the length of the path. -/
def follow? (tree : FileTree) (path : String) : Option Location :=
  (pieces path.toList).foldlM tree.step? (tree.start path)

/-- A path that leads to a directory. -/
structure LeadsTo (tree : FileTree) (path : String) (place : Location) : Prop where
  follows : tree.follow? path = some place
  directory : tree.isDirectoryAt place = true

/-- A path leads to one directory only. -/
theorem LeadsTo.unique (h : tree.LeadsTo path place) (h' : tree.LeadsTo path next) :
    place = next :=
  Option.some.inj (h.follows.symm.trans h'.follows)

/-- A path is looked up by following it, if it can be used at all. -/
theorem locate?_eq_some : tree.locate? path = some place ↔
    isUsable path = true ∧ tree.follow? path = some place := by
  unfold locate? follow?
  by_cases husable : isUsable path = true <;> simp [husable]

/-- A step starts from a directory. -/
theorem isDirectoryAt_of_step? {piece : String} (h : tree.step? place piece = some next) :
    tree.isDirectoryAt place = true := by
  unfold step? at h
  split at h
  · cases h
  · rename_i hdirectory
    simpa using hdirectory

/-- Steps start from a directory. -/
theorem isDirectoryAt_of_foldlM {pieces : List String} (hne : pieces ≠ [])
    (h : pieces.foldlM tree.step? place = some next) : tree.isDirectoryAt place = true := by
  obtain ⟨piece, rest, rfl⟩ := List.exists_cons_of_ne_nil hne
  rw [List.foldlM_cons] at h
  obtain ⟨_, hstep, -⟩ := Option.bind_eq_some_iff.1 h
  exact isDirectoryAt_of_step? hstep

/-- A piece that is skipped leads from a directory to itself. -/
theorem step?_skipped {piece : String} (hskipped : isSkipped piece = true)
    (h : tree.isDirectoryAt place = true) : tree.step? place piece = some place := by
  simp [step?, h, hskipped]

/-- Pieces that are skipped lead from a directory to itself. -/
theorem foldlM_step?_skipped {pieces : List String}
    (hskipped : ∀ piece ∈ pieces, isSkipped piece = true)
    (h : tree.isDirectoryAt place = true) : pieces.foldlM tree.step? place = some place := by
  induction pieces with
  | nil => rfl
  | cons piece pieces ih =>
    rw [List.forall_mem_cons] at hskipped
    rw [List.foldlM_cons, step?_skipped hskipped.1 h]
    exact ih hskipped.2

/-- Steps to names lead on by these names. -/
theorem foldlM_step?_names {pieces : List String} (hplain : ".." ∉ pieces)
    (h : pieces.foldlM tree.step? place = some next) :
    next = place ++ pieces.filter fun piece => !isSkipped piece := by
  induction pieces generalizing place with
  | nil =>
    rw [List.filter_nil, List.append_nil]
    exact (Option.some.inj h).symm
  | cons piece pieces ih =>
    rw [List.mem_cons, not_or] at hplain
    rw [List.foldlM_cons] at h
    obtain ⟨middle, hstep, hrest⟩ := Option.bind_eq_some_iff.1 h
    rw [ih hplain.2 hrest]
    have hdirectory := isDirectoryAt_of_step? hstep
    by_cases hskipped : isSkipped piece = true
    · rw [step?_skipped hskipped hdirectory] at hstep
      rw [← Option.some.inj hstep, List.filter_cons_of_neg (by simpa using hskipped)]
    · rw [List.filter_cons_of_pos (by simpa using hskipped)]
      simp only [step?, hdirectory, hskipped, Ne.symm hplain.1, Bool.not_true, Bool.false_eq_true,
        if_false] at hstep
      split at hstep
      · rw [← Option.some.inj hstep, List.append_assoc]
        rfl
      · cases hstep

/-! ### Paths that stay alive -/

/-- A step is still possible where all directories are kept. -/
theorem Keeps.step? {piece : String} (h : Keeps touched tree tree')
    (hstep : tree.step? place piece = some next) : tree'.step? place piece = some next := by
  have hdirectory := isDirectoryAt_of_step? hstep
  simp only [FileTree.step?, hdirectory] at hstep
  simpa only [FileTree.step?, h.directories place hdirectory] using hstep

/-- Steps are still possible where all directories are kept. -/
theorem Keeps.foldlM_step? {pieces : List String} (h : Keeps touched tree tree')
    (hsteps : pieces.foldlM tree.step? place = some next) :
    pieces.foldlM tree'.step? place = some next := by
  induction pieces generalizing place with
  | nil => exact hsteps
  | cons piece pieces ih =>
    rw [List.foldlM_cons] at hsteps ⊢
    obtain ⟨middle, hstep, hrest⟩ := Option.bind_eq_some_iff.1 hsteps
    rw [h.step? hstep]
    exact ih hrest

/-- A path still leads to the same location where all directories are kept. -/
theorem Keeps.follow? (h : Keeps touched tree tree') (hfollow : tree.follow? path = some place) :
    tree'.follow? path = some place := by
  unfold FileTree.follow? start at hfollow ⊢
  rw [h.current]
  exact h.foldlM_step? hfollow

/-- A path still leads to the same directory where all directories are kept. -/
theorem Keeps.leadsTo (h : Keeps touched tree tree') (hleads : tree.LeadsTo path place) :
    tree'.LeadsTo path place :=
  ⟨h.follow? hleads.follows, h.directories place hleads.directory⟩

/-- A path is still looked up at the same location where all directories are kept. -/
theorem Keeps.locate? (h : Keeps touched tree tree') (hlocate : tree.locate? path = some place) :
    tree'.locate? path = some place := by
  rw [locate?_eq_some] at hlocate ⊢
  exact ⟨hlocate.1, h.follow? hlocate.2⟩

/-! ### Paths below a directory -/

/-- A relative path starts from the current directory. -/
theorem start_of_relative (h : isAbsolute path = false) : tree.start path = tree.current := by
  rw [start, h]
  rfl

/-- Steps one after the other. -/
theorem foldlM_append_eq_some {pieces pieces' : List String} :
    (pieces ++ pieces').foldlM tree.step? place = some next ↔
      ∃ middle, pieces.foldlM tree.step? place = some middle ∧
        pieces'.foldlM tree.step? middle = some next := by
  rw [List.foldlM_append]
  exact Option.bind_eq_some_iff

/-- The empty piece leads from a directory to itself. -/
theorem foldlM_step?_empty :
    [""].foldlM tree.step? place = some next ↔ place = next ∧ tree.isDirectoryAt place = true := by
  constructor
  · intro h
    have hdirectory := isDirectoryAt_of_foldlM (by simp) h
    rw [foldlM_step?_skipped (by decide) hdirectory] at h
    exact ⟨Option.some.inj h, hdirectory⟩
  · rintro ⟨rfl, hdirectory⟩
    exact foldlM_step?_skipped (by decide) hdirectory

/-- The empty path leads to the current directory, if it is there. -/
theorem leadsTo_empty :
    tree.LeadsTo "" place ↔ tree.current = place ∧ tree.isDirectoryAt place = true := by
  have hfollow : tree.follow? "" = [""].foldlM tree.step? tree.current := rfl
  constructor
  · rintro ⟨h, hdirectory⟩
    rw [hfollow, foldlM_step?_empty] at h
    exact ⟨h.1, hdirectory⟩
  · rintro ⟨rfl, hdirectory⟩
    exact ⟨hfollow.trans (foldlM_step?_empty.2 ⟨rfl, hdirectory⟩), hdirectory⟩

/-- A slash behind a path does not change which directory it leads to. -/
theorem leadsTo_iff {above : List Char} (h : path.toList = above ∨ path.toList = above ++ ['/']) :
    tree.LeadsTo path place ↔
      (pieces above).foldlM tree.step? (tree.start path) = some place ∧
        tree.isDirectoryAt place = true := by
  rcases h with rfl | h
  · exact ⟨fun h => ⟨h.follows, h.directory⟩, fun h => ⟨h.1, h.2⟩⟩
  · have hfollow : tree.follow? path
        = (pieces above ++ [""]).foldlM tree.step? (tree.start path) := by
      rw [follow?, h, pieces_append_slash]
      rfl
    constructor
    · rintro ⟨h, hdirectory⟩
      rw [hfollow, foldlM_append_eq_some] at h
      obtain ⟨middle, habove, hslash⟩ := h
      rw [foldlM_step?_empty] at hslash
      exact ⟨hslash.1 ▸ habove, hdirectory⟩
    · rintro ⟨habove, hdirectory⟩
      refine ⟨hfollow.trans (foldlM_append_eq_some.2 ⟨place, habove, ?_⟩), hdirectory⟩
      exact foldlM_step?_empty.2 ⟨rfl, hdirectory⟩

/-- A path that is joined to a directory leads on from where this directory is. -/
theorem follow?_join (h : isAbsolute name = false) :
    tree.follow? (join dir name) = some next ↔
      ∃ place, tree.LeadsTo dir place ∧
        (pieces name.toList).foldlM tree.step? place = some next := by
  have hdirectory : ∀ {place}, (pieces name.toList).foldlM tree.step? place = some next →
      tree.isDirectoryAt place = true := isDirectoryAt_of_foldlM (pieces_ne_nil name.toList)
  by_cases hempty : dir = ""
  · -- The path starts from the current directory, where the empty path leads.
    have hjoin : join dir name = name := by simp [join, h, hempty]
    rw [hjoin, hempty, follow?, start_of_relative h]
    constructor
    · intro hsteps
      exact ⟨tree.current, leadsTo_empty.2 ⟨rfl, hdirectory hsteps⟩, hsteps⟩
    · rintro ⟨place, hleads, hsteps⟩
      rw [(leadsTo_empty.1 hleads).1]
      exact hsteps
  · obtain ⟨above, hjoin, habove⟩ := toList_join h hempty
    have hstart : tree.start (join dir name) = tree.start dir := by
      have hhead : (join dir name).toList.head? = dir.toList.head? := by
        rw [hjoin]
        rcases habove with habove | habove
        · have hne : above ≠ [] := by
            rintro rfl
            exact hempty (String.toList_eq_nil_iff.1 habove)
          rw [habove, List.head?_append_of_ne_nil _ hne]
        · rw [habove]
          cases above <;> rfl
      rw [start, start, isAbsolute, isAbsolute, hhead]
    rw [follow?, hstart, hjoin, pieces_append_slash, foldlM_append_eq_some]
    constructor
    · rintro ⟨place, hdir, hsteps⟩
      exact ⟨place, (leadsTo_iff habove).2 ⟨hdir, hdirectory hsteps⟩, hsteps⟩
    · rintro ⟨place, hleads, hsteps⟩
      exact ⟨place, ((leadsTo_iff habove).1 hleads).1, hsteps⟩

/-- A plain path that is joined to a directory leads on by its names. -/
theorem locate?_join (hplain : isPlain name = true)
    (h : tree.locate? (join dir name) = some next) :
    ∃ place, tree.LeadsTo dir place ∧ next = place ++ steps name := by
  obtain ⟨hrelative, hparent⟩ := isPlain_spec hplain
  obtain ⟨place, hleads, hsteps⟩ := (follow?_join hrelative).1 (locate?_eq_some.1 h).2
  exact ⟨place, hleads, foldlM_step?_names hparent hsteps⟩

/-- A name that is joined to a directory leads to the entry of that name. -/
theorem locate?_join_name (hleads : tree.LeadsTo dir place)
    (husable : isUsable (join dir name) = true) (hpieces : pieces name.toList = [name])
    (hplain : isPlain name = true) (hskipped : isSkipped name = false)
    (hsize : name.utf8ByteSize ≤ maxNameBytes) :
    tree.locate? (join dir name) = some (place ++ [name]) := by
  obtain ⟨hrelative, hparent⟩ := isPlain_spec hplain
  rw [hpieces, List.mem_singleton] at hparent
  refine locate?_eq_some.2 ⟨husable, (follow?_join hrelative).2 ⟨place, hleads, ?_⟩⟩
  rw [hpieces, List.foldlM_cons, step?]
  simp [hleads.directory, hskipped, Ne.symm hparent, hsize]

/-- The locations that are touched below where a directory is. -/
def Below (tree : FileTree) (dir : String) (touched : (base place : Location) → Prop)
    (place : Location) : Prop :=
  ∃ base, tree.LeadsTo dir base ∧ touched base place

/-- What is below a directory stays below it where all directories are kept. -/
theorem Below.mono {below below' : (base place : Location) → Prop} (h : Keeps touched tree tree')
    (hsub : ∀ base place, below base place → below' base place)
    (hplace : tree.Below dir below place) : tree'.Below dir below' place := by
  obtain ⟨base, hleads, hbelow⟩ := hplace
  exact ⟨base, h.leadsTo hleads, hsub base place hbelow⟩

/-- A change at a plain path that is joined to a directory stays below where the directory is. -/
theorem keeps_join (hplain : isPlain name = true)
    (hlocate : tree.locate? (join dir name) = some place)
    (h : Keeps (· = place) tree tree') :
    Keeps (tree'.Below dir fun base place => place = base ++ steps name) tree tree' := by
  obtain ⟨base, hleads, hplace⟩ := locate?_join hplain hlocate
  refine h.mono fun other hother => ⟨base, h.leadsTo hleads, ?_⟩
  rw [hother, hplace]

/-! ### Making directories -/

/-- A path above a relative path is relative. -/
theorem isAbsolute_of_mem_ancestors {above : String} (h : above ∈ ancestors path)
    (hrelative : isAbsolute path = false) : isAbsolute above = false := by
  rcases mem_ancestors h with ⟨-, habsolute⟩ | ⟨hne, behind, hpath⟩
  · rw [hrelative] at habsolute
    cases habsolute
  · have hne : above.toList ≠ [] := fun hnil => hne (String.toList_eq_nil_iff.1 hnil)
    rw [isAbsolute, hpath, List.head?_append_of_ne_nil _ hne] at hrelative
    exact hrelative

/-- The path above a relative path is relative. -/
theorem isAbsolute_of_parent? {above : String} (h : parent? path = some above)
    (hrelative : isAbsolute path = false) : isAbsolute above = false := by
  unfold parent? at h
  dsimp only at h
  split at h
  · split at h
    · rw [← Option.some.inj h]
      rfl
    · cases h
  · rw [← Option.some.inj h]
    cases habove : ancestors path with
    | nil => rfl
    | cons nearest rest =>
      rw [List.head?_cons, Option.getD_some]
      exact isAbsolute_of_mem_ancestors (habove ▸ List.mem_cons_self) hrelative

/-- A path to a directory can be used, and leads there. -/
theorem isDirectory_eq_true :
    tree.isDirectory path = true ↔ isUsable path = true ∧ ∃ place, tree.LeadsTo path place := by
  rw [isDirectory, decide_eq_true_eq, find?, Option.bind_eq_some_iff]
  constructor
  · rintro ⟨place, hlocate, hentry⟩
    obtain ⟨husable, hfollow⟩ := locate?_eq_some.1 hlocate
    exact ⟨husable, place, hfollow, decide_eq_true hentry⟩
  · rintro ⟨husable, place, hfollow, hdirectory⟩
    exact ⟨place, locate?_eq_some.2 ⟨husable, hfollow⟩, of_decide_eq_true hdirectory⟩

/-- The front of a path that can be used can be used. -/
theorem isUsable_of_append {front behind : String} (hne : front ≠ "")
    (h : isUsable (front ++ behind) = true) : isUsable front = true := by
  simp only [isUsable, Bool.and_eq_true, decide_eq_true_eq, Bool.not_eq_true',
    String.utf8ByteSize_append, String.toList_append, List.contains_append,
    Bool.or_eq_false_iff] at h ⊢
  exact ⟨⟨hne, by omega⟩, h.2.1⟩

/-- If a path that is joined to a directory can be used, so can the directory. -/
theorem isUsable_of_join (hne : dir ≠ "") (hrelative : isAbsolute name = false)
    (h : isUsable (join dir name) = true) : isUsable dir = true := by
  unfold join at h
  rw [hrelative, if_neg (by simp)] at h
  split at h
  · exact isUsable_of_append hne h
  · rw [String.append_assoc] at h
    exact isUsable_of_append hne h

/-- If a path leads to a directory, so do all paths above it. -/
theorem isDirectory_of_mem_ancestors {above : String} (h : above ∈ ancestors path)
    (husable : isUsable path = true) (hleads : tree.LeadsTo path place) :
    tree.isDirectory above = true := by
  rw [isDirectory_eq_true]
  rcases mem_ancestors h with ⟨rfl, -⟩ | ⟨hne, behind, hpath⟩
  · refine ⟨by decide, [], ?_, rfl⟩
    rfl
  · have hlonger : path = above ++ String.ofList ('/' :: behind) := by
      apply String.toList_inj.1
      rw [hpath, String.toList_append, String.toList_ofList]
    have hstart : tree.start above = tree.start path := by
      have hne : above.toList ≠ [] := fun hnil => hne (String.toList_eq_nil_iff.1 hnil)
      rw [start, start, isAbsolute, isAbsolute, hpath, List.head?_append_of_ne_nil _ hne]
    constructor
    · rw [hlonger] at husable
      exact isUsable_of_append hne husable
    · have hfollow := hleads.follows
      rw [follow?, hpath, pieces_append_slash, foldlM_append_eq_some, ← hstart] at hfollow
      obtain ⟨middle, habove, hbehind⟩ := hfollow
      exact ⟨middle, habove, isDirectoryAt_of_foldlM (pieces_ne_nil behind) hbehind⟩

/-- A directory is where it was made. -/
theorem isDirectory_of_createDirectory? (h : tree.createDirectory? path = some tree') :
    tree'.isDirectory path = true := by
  have hkeeps := keeps_createDirectory? h
  obtain ⟨husable, front, behind, place, hpieces, -, hbehind, hplace, habsent, rfl⟩ :=
    createDirectory?_eq_some h
  have hdirectory : (tree.set place .directory).isDirectoryAt place = true := by
    by_cases hroot : place = []
    · rw [hroot]
      rfl
    · rw [isDirectoryAt, entryAt?_set_self hroot]
      rfl
  refine isDirectory_eq_true.2 ⟨husable, place, ?_, hdirectory⟩
  rw [follow?, hpieces, foldlM_append_eq_some]
  refine ⟨place, hkeeps.foldlM_step? hplace, foldlM_step?_skipped ?_ hdirectory⟩
  intro piece hpiece
  rw [hbehind piece hpiece]
  decide

/-- Directories are made until one of them cannot be made. -/
theorem exists_not_isDirectory {paths : List String} (h : (tree.ensureAll paths).1 = false) :
    ∃ path ∈ paths, (tree.ensureAll paths).2.isDirectory path = false := by
  induction paths generalizing tree with
  | nil => cases h
  | cons path paths ih =>
    rw [ensureAll] at h ⊢
    cases hensure : tree.ensureDirectory? path with
    | none =>
      refine ⟨path, List.mem_cons_self, ?_⟩
      unfold ensureDirectory? at hensure
      split at hensure
      · cases hensure
      · rename_i hdirectory
        simpa using hdirectory
    | some tree' =>
      rw [hensure] at h
      obtain ⟨path', hmem, hdirectory⟩ := ih h
      exact ⟨path', List.mem_cons_of_mem path hmem, hdirectory⟩

/-- If directories can be made, they are there. -/
theorem isDirectory_of_ensureAll {paths : List String} (h : (tree.ensureAll paths).1 = true) :
    ∀ path ∈ paths, (tree.ensureAll paths).2.isDirectory path = true := by
  induction paths generalizing tree with
  | nil =>
    intro path hpath
    cases hpath
  | cons path paths ih =>
    have hkeeps : ∀ tree : FileTree, Keeps (fun _ => False) tree (tree.ensureAll paths).2 :=
      fun tree => keeps_ensureAll paths
    rw [ensureAll] at h ⊢
    cases hensure : tree.ensureDirectory? path with
    | none =>
      rw [hensure] at h
      cases h
    | some tree' =>
      rw [hensure] at h
      intro other hother
      rcases List.mem_cons.1 hother with rfl | hother
      · have hdirectory : tree'.isDirectory other = true := by
          unfold ensureDirectory? at hensure
          split at hensure
          · rename_i hdirectory
            rw [← Option.some.inj hensure]
            exact hdirectory
          · exact isDirectory_of_createDirectory? hensure
        rw [isDirectory_eq_true] at hdirectory ⊢
        obtain ⟨husable, place, hleads⟩ := hdirectory
        exact ⟨husable, place, (hkeeps tree').leadsTo hleads⟩
      · exact ih h other hother

/-- A directory that could be made is where the path leads. -/
theorem leadsTo_of_createDirectories (hne : path ≠ "")
    (h : (tree.createDirectories path).1 = true) :
    ∃ place, (tree.createDirectories path).2.LeadsTo path place := by
  unfold createDirectories at h ⊢
  rw [if_neg hne] at h ⊢
  split at h
  · cases h
  rename_i husable
  rw [if_neg husable]
  have hdirectory := isDirectory_of_ensureAll h path (by simp)
  exact (isDirectory_eq_true.1 hdirectory).2

/-- A path along which not all directories could be made leads to no directory. -/
theorem not_leadsTo_of_createDirectories (husable : isUsable path = true)
    (h : (tree.createDirectories path).1 = false) :
    ¬ (tree.createDirectories path).2.LeadsTo path place := by
  unfold createDirectories at h ⊢
  split at h
  · cases h
  rename_i hne
  rw [if_neg hne]
  rw [husable] at h ⊢
  obtain ⟨above, hmem, hdirectory⟩ := exists_not_isDirectory h
  intro hleads
  -- All paths above lead to directories because the path does.
  suffices htrue :
      (tree.ensureAll ((ancestors path).reverse ++ [path])).2.isDirectory above = true by
    rw [hdirectory] at htrue
    cases htrue
  rcases List.mem_append.1 hmem with habove | habove
  · exact isDirectory_of_mem_ancestors (List.mem_reverse.1 habove) husable hleads
  · rw [List.mem_singleton.1 habove, isDirectory_eq_true]
    exact ⟨husable, place, hleads⟩

/-! ### Without a current directory -/

section Stuck

/-- Where the current directory is gone, no relative path leads anywhere. -/
theorem locate?_stuck (hcurrent : tree.isDirectoryAt tree.current = false)
    (h : isAbsolute path = false) : tree.locate? path = none := by
  rw [Option.eq_none_iff_forall_ne_some]
  intro place hlocate
  have hfollow := (locate?_eq_some.1 hlocate).2
  rw [follow?, start_of_relative h] at hfollow
  rw [isDirectoryAt_of_foldlM (pieces_ne_nil _) hfollow] at hcurrent
  cases hcurrent

/-- Where the current directory is gone, no directory can be made along a relative path. -/
theorem createDirectories_stuck (hcurrent : tree.isDirectoryAt tree.current = false)
    (h : isAbsolute path = false) : (tree.createDirectories path).2 = tree := by
  have hensure : ∀ {path}, isAbsolute path = false → tree.ensureDirectory? path = none := by
    intro path h
    have hdirectory : ¬ tree.isDirectory path = true := by
      rw [isDirectory, find?, locate?_stuck hcurrent h]
      simp
    rw [ensureDirectory?, if_neg hdirectory, Option.eq_none_iff_forall_ne_some]
    intro tree' hcreate
    obtain ⟨-, front, behind, place, -, hne, -, hplace, -⟩ := createDirectory?_eq_some hcreate
    rw [start_of_relative h] at hplace
    rw [isDirectoryAt_of_foldlM hne hplace] at hcurrent
    cases hcurrent
  unfold createDirectories
  split
  · rfl
  split
  · rfl
  -- Not even the first directory can be made.
  cases habove : (ancestors path).reverse with
  | nil =>
    rw [List.nil_append, ensureAll, hensure h]
  | cons above rest =>
    have hmem : above ∈ ancestors path := by
      rw [← List.mem_reverse, habove]
      exact List.mem_cons_self
    rw [List.cons_append, ensureAll, hensure (isAbsolute_of_mem_ancestors hmem h)]

end Stuck

end FileTree

end Grounder
