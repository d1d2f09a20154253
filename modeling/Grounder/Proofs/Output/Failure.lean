import Grounder.Proofs.Output.Write

/-!
# `Grounder.Proofs.Output.Failure`: what a failed run leaves behind

A directory without a manifest holds an incomplete run. So a run that fails should leave no
manifest, whatever was there before, and it should touch no files of others (`writeAt_leaves`).

It does leave one in a single case. A path that is too long to be looked up leads to nothing, so the
manifest of the previous run is not found, and later the new one cannot be written for the same
reason: `old_manifest_survives`.
-/

set_option autoImplicit false

namespace Grounder

open FileTree

namespace ArtifactSet

variable {set : ArtifactSet} {dir time : String} {tree : FileTree}

/-- The manifest of the previous run is gone once this run was taken back, if its path can be
looked up. -/
theorem fileAt?_previousCleared {base : Location}
    (hleads : (directoryMade dir tree).LeadsTo dir base)
    (husable : isUsable (Path.join dir manifestName) = true) :
    (set.previousCleared dir time tree).fileAt? (base ++ [manifestName]) = none := by
  have hlocate := locate?_join_name hleads husable (by decide) (by decide) (by decide) (by decide)
  exact (cleared_clearPreviousAt set dir time (directoryMade dir tree)).manifest _ hlocate

/-- A run that fails leaves no manifest in the output directory, if the path of the manifest can be
looked up. -/
theorem fileAt?_manifest_of_error (h : set.HasPlainNames) {e : WriteError}
    (herror : (set.writeAt dir time tree).1 = .error e)
    (husable : isUsable (Path.join dir manifestName) = true) {base : Location}
    (hleads : (set.writeAt dir time tree).2.LeadsTo dir base) :
    (set.writeAt dir time tree).2.fileAt? (base ++ [manifestName]) = none := by
  rcases writeAt_cases set dir time tree with
    ⟨hmade, e, hrun⟩ | ⟨hmade, ⟨e, hrun⟩ | ⟨e, hrun⟩ | ⟨-, done, -, hrun⟩⟩
  · -- A directory that could not be made is not there.
    have hne : dir ≠ "" := by
      rintro rfl
      cases hmade
    rw [hrun] at hleads
    exact absurd hleads
      (not_leadsTo_of_createDirectories (isUsable_of_join hne (by decide) husable) hmade)
  · have hleadsMade := leadsTo_directoryMade h.plain hmade hleads
    rw [hrun]
    exact fileAt?_previousCleared hleadsMade husable
  · have hleadsMade := leadsTo_directoryMade h.plain hmade hleads
    rw [hrun] at hleads ⊢
    rw [fileAt?_artifactsWritten h hleads]
    exact fileAt?_previousCleared hleadsMade husable
  · rw [hrun] at herror
    cases herror

/-- If the path of the manifest cannot be looked up, a run fails and leaves the manifest of the
previous run where it is. -/
theorem manifest_stays_of_unusable (h : set.HasPlainNames) (time : String) (tree : FileTree)
    (husable : isUsable (Path.join dir manifestName) = false) :
    (∃ e, (set.writeAt dir time tree).1 = .error e) ∧ ∀ base,
      (set.writeAt dir time tree).2.LeadsTo dir base →
        (set.writeAt dir time tree).2.fileAt? (base ++ [manifestName])
          = tree.fileAt? (base ++ [manifestName]) := by
  have hlocate : ∀ tree : FileTree, tree.locate? (Path.join dir manifestName) = none := by
    intro tree
    rw [locate?, husable]
    rfl
  have hmade : ∀ place, (directoryMade dir tree).fileAt? place = tree.fileAt? place :=
    fun place => (keeps_directoryMade dir tree).files place id
  have hcleared : set.previousCleared dir time tree = directoryMade dir tree := by
    rw [previousCleared, clearPreviousAt_eq, isPresent, find?, hlocate]
    rfl
  rcases writeAt_cases set dir time tree with
    ⟨-, e, hrun⟩ | ⟨-, ⟨e, hrun⟩ | ⟨e, hrun⟩ | ⟨-, done, hwrite, -⟩⟩
  · rw [hrun]
    exact ⟨⟨e, rfl⟩, fun base _ => hmade _⟩
  · rw [hrun, hcleared]
    exact ⟨⟨e, rfl⟩, fun base _ => hmade _⟩
  · rw [hrun]
    refine ⟨⟨e, rfl⟩, fun base hleads => ?_⟩
    rw [fileAt?_artifactsWritten h hleads, hcleared]
    exact hmade _
  · rw [write?, hlocate] at hwrite
    cases hwrite

/-- A run that fails leaves no manifest in the output directory, or, if the path of the manifest
cannot be looked up, the one that was there. Whether a run fails or not, it leaves all files as they
are but the manifest, the artifacts of the set, and what the manifest before lists as plain paths
below the output directory. -/
theorem writeAt_leaves (h : set.HasPlainNames) (dir time : String) (tree : FileTree) :
    ((∃ e, (set.writeAt dir time tree).1 = .error e) → ∀ base,
      (set.writeAt dir time tree).2.LeadsTo dir base →
        (set.writeAt dir time tree).2.fileAt? (base ++ [manifestName])
          = if isUsable (Path.join dir manifestName) = true then none
            else tree.fileAt? (base ++ [manifestName])) ∧
    ∀ place, ¬ (set.writeAt dir time tree).2.Below dir (set.Touches tree) place →
      (set.writeAt dir time tree).2.fileAt? place = tree.fileAt? place := by
  constructor
  · rintro ⟨e, herror⟩ base hleads
    by_cases husable : isUsable (Path.join dir manifestName) = true
    · rw [if_pos husable]
      exact fileAt?_manifest_of_error h herror husable hleads
    · rw [if_neg husable]
      rw [Bool.not_eq_true] at husable
      exact (manifest_stays_of_unusable h time tree husable).2 base hleads
  · exact (keeps_writeAt h.plain dir time tree).files

/-- A directory stands where an artifact belongs, so the set cannot be written. -/
def blockedTree : FileTree :=
  ⟨[], [(["out"], .directory), (["out", "b.data"], .directory),
    (["out", manifestName], .file (.text "old")), (["out", "notes.txt"], .file (.text "mine"))]⟩

/-- A set of two artifacts, the second of which `blockedTree` blocks. -/
def blockedSet : ArtifactSet := ⟨[⟨"a.data", "1"⟩, ⟨"b.data", "1"⟩]⟩

/-- Writing `blockedSet` into `blockedTree` fails. The manifest is gone then, and the notes are
still there. -/
theorem writeAt_leaves_blocked :
    (∃ e, (blockedSet.writeAt "out" "now" blockedTree).1 = .error e) ∧
      (blockedSet.writeAt "out" "now" blockedTree).2.fileAt? ["out", manifestName] = none ∧
      (blockedSet.writeAt "out" "now" blockedTree).2.fileAt? ["out", "notes.txt"]
        = some (.text "mine") := by
  have hnames : blockedSet.HasPlainNames := ⟨by decide, by decide⟩
  have hleads : blockedTree.LeadsTo "out" ["out"] := ⟨by decide, by decide⟩
  have herror : ∃ e, (blockedSet.writeAt "out" "now" blockedTree).1 = .error e := by
    have hfails : (blockedSet.writeAt "out" "now" blockedTree).1.isOk = false := by decide +kernel
    cases hresult : (blockedSet.writeAt "out" "now" blockedTree).1 with
    | error e => exact ⟨e, rfl⟩
    | ok manifest =>
      rw [hresult] at hfails
      cases hfails
  have hkept := (keeps_writeAt hnames.plain "out" "now" blockedTree).leadsTo hleads
  obtain ⟨hmanifest, hothers⟩ := writeAt_leaves hnames "out" "now" blockedTree
  refine ⟨herror, ?_, ?_⟩
  · rw [show ["out", manifestName] = ["out"] ++ [manifestName] from rfl, hmanifest herror _ hkept,
      if_pos (by decide)]
  · rw [hothers ["out", "notes.txt"]]
    · rfl
    rintro ⟨base, hbase, htouched⟩
    obtain rfl : ["out"] = base := hkept.unique hbase
    have hlisted : listed (manifestIn? blockedTree ["out"]) = [] := by decide +kernel
    rcases htouched with h | ⟨a, ha, h⟩ | ⟨e, he, -⟩
    · exact absurd h (by decide)
    · revert a
      decide
    · rw [hlisted] at he
      cases he

/-- A path to the directory `out`, with steps from this directory to itself. -/
def detour : (steps : Nat) → String
  | 0 => "out"
  | steps + 1 => detour steps ++ "/."

/-- Every step makes the path longer by two bytes. -/
theorem utf8ByteSize_detour (n : Nat) : (detour n).utf8ByteSize = 3 + 2 * n := by
  induction n with
  | zero => rfl
  | succ n ih =>
    rw [detour, String.utf8ByteSize_append, ih]
    show 3 + 2 * n + 2 = _
    omega

/-- The pieces of the path after the name of the directory are skipped. -/
theorem pieces_detour (n : Nat) :
    Path.pieces (detour n).toList = "out" :: List.replicate n "." := by
  induction n with
  | zero => decide
  | succ n ih =>
    rw [detour, String.toList_append]
    show Path.pieces ((detour n).toList ++ '/' :: ['.']) = _
    rw [Path.pieces_append_slash, ih, List.replicate_succ', List.cons_append]
    rfl

/-- The path can be used as long as it is short enough. -/
theorem isUsable_detour {n : Nat} (h : 3 + 2 * n ≤ maxPathBytes) : isUsable (detour n) = true := by
  have hne : detour n ≠ "" := by
    intro hempty
    have hsize := utf8ByteSize_detour n
    rw [hempty] at hsize
    simp at hsize
    omega
  have hnul : '\x00' ∉ (detour n).toList := by
    clear h hne
    induction n with
    | zero => decide
    | succ n ih =>
      rw [detour, String.toList_append, List.mem_append, not_or]
      exact ⟨ih, by decide⟩
  simp [isUsable, hne, utf8ByteSize_detour, h, hnul]

/-- A tree with the manifest of a previous run. -/
def finishedTree : FileTree :=
  ⟨[], [(["out"], .directory), (["out", manifestName], .file (.text "old"))]⟩

/-- However long the path is, it leads to the directory. -/
theorem leadsTo_detour (n : Nat) : finishedTree.LeadsTo (detour n) ["out"] := by
  have hstart : finishedTree.start (detour n) = [] := by
    unfold start
    split <;> rfl
  refine ⟨?_, by decide⟩
  rw [follow?, pieces_detour, hstart, List.foldlM_cons]
  show (List.replicate n ".").foldlM finishedTree.step? ["out"] = some ["out"]
  refine foldlM_step?_skipped (fun piece hpiece => ?_) (by decide)
  rw [List.eq_of_mem_replicate hpiece]
  decide

/-- With 2045 steps to itself, the path of the output directory can just be used, and that of the
manifest cannot. So writing the empty set into it fails, and the manifest of the previous run is
still there. -/
theorem old_manifest_survives :
    isUsable (detour 2045) = true ∧
    (∃ e, ((⟨[]⟩ : ArtifactSet).writeAt (detour 2045) "now" finishedTree).1 = .error e) ∧
    ((⟨[]⟩ : ArtifactSet).writeAt (detour 2045) "now" finishedTree).2.LeadsTo (detour 2045) ["out"] ∧
    ((⟨[]⟩ : ArtifactSet).writeAt (detour 2045) "now" finishedTree).2.fileAt? ["out", manifestName]
      = some (.text "old") := by
  have hnames : (⟨[]⟩ : ArtifactSet).HasPlainNames := ⟨by decide, by decide⟩
  have hunusable : isUsable (Path.join (detour 2045) manifestName) = false := by
    have hrelative : Path.isAbsolute manifestName = false := by decide
    have hsize := Path.le_utf8ByteSize_join (detour 2045) hrelative
    rw [utf8ByteSize_detour] at hsize
    have hname : manifestName.utf8ByteSize = 13 := by decide
    have hlong : ¬ (Path.join (detour 2045) manifestName).utf8ByteSize ≤ maxPathBytes := by
      rw [maxPathBytes]
      omega
    simp [isUsable, hlong]
  obtain ⟨herror, hstays⟩ := manifest_stays_of_unusable hnames "now" finishedTree hunusable
  have hleads := (keeps_writeAt hnames.plain (detour 2045) "now" finishedTree).leadsTo
    (leadsTo_detour 2045)
  exact ⟨isUsable_detour (by decide), herror, hleads, hstays ["out"] hleads⟩

end ArtifactSet

end Grounder
