import Grounder.Output.Write
import Grounder.Proofs.Files.FileStore

/-!
# `Grounder.Proofs.Output.Write`: what writing a set does to a tree

Writing a set into a directory of a tree (`writeAt`) goes through four stages: the directory is
made, the previous run is taken back, the artifacts are written, and the manifest is written last
(`writeAt_cases`). The lemmas say what each stage leaves behind, also where it fails:

* `cleared_clearPreviousAt`: the manifest is gone, and so are the stale files that it listed;
* `held_of_writeArtifactsAt`: wherever the name of an artifact leads, there is one of the artifacts
  after they were written;
* `keeps_writeAt`: over all stages, nothing is touched but the manifest, the artifacts, and the
  plain paths that the manifest of the previous run lists, all of them below the output directory
  (`Touches`).

The entries of a manifest that was found are not trusted. They may name files above the output
directory, or directories, and are passed over then.
-/

set_option autoImplicit false

namespace Grounder

open FileTree

namespace ArtifactSet

variable {set : ArtifactSet} {dir time : String} {tree tree' : FileTree}

/-! ### On a tree -/

/-- Writing a set into a directory of a tree, at a certain time. -/
def writeAt (set : ArtifactSet) (dir time : String) (tree : FileTree) :
    Except WriteError Manifest × FileTree :=
  runOn (@write (StateM FileTree) _ (storeAt time) set dir) tree

/-- Removing files that a manifest lists from a tree. -/
def removeStaleAt (set : ArtifactSet) (dir time : String) (entries : List ManifestEntry)
    (tree : FileTree) : Except WriteError Unit × FileTree :=
  runOn (@removeStale (StateM FileTree) _ (storeAt time) set dir entries) tree

/-- Taking back the previous run in a tree. -/
def clearPreviousAt (set : ArtifactSet) (dir time : String) (tree : FileTree) :
    Except WriteError Unit × FileTree :=
  runOn (@clearPrevious (StateM FileTree) _ (storeAt time) set dir) tree

/-- Writing one artifact into a tree. -/
def writeArtifactAt (dir time : String) (a : Artifact) (tree : FileTree) :
    Except WriteError Unit × FileTree :=
  runOn (@writeArtifact (StateM FileTree) _ (storeAt time) dir a) tree

/-- Writing artifacts into a tree. -/
def writeArtifactsAt (dir time : String) (artifacts : List Artifact) (tree : FileTree) :
    Except WriteError Unit × FileTree :=
  runOn (@writeArtifacts (StateM FileTree) _ (storeAt time) dir artifacts) tree

/-- The tree in which the directories above a path were made, and whether all of them were. -/
def makeParent (path : String) (tree : FileTree) : Bool × FileTree :=
  match Path.parent? path with
  | some parent => tree.createDirectories parent
  | none => (true, tree)

/-- A step that has to succeed. -/
theorem runOn_demand (change : StateM FileTree Bool) (e : WriteError) :
    runOn (demand change e) tree = match change tree with
      | (true, tree') => (.ok (), tree')
      | (false, tree') => (.error e, tree') := by
  show runOn (liftM change >>= fun b => if b then pure () else throw e) tree = _
  rw [runOn_bind, runOn_lift]
  rcases change tree with ⟨_ | _, tree'⟩ <;> rfl

/-- A listed file is removed if it is stale and there. -/
theorem removeStaleAt_cons (set : ArtifactSet) (dir time : String) (e : ManifestEntry)
    (rest : List ManifestEntry) (tree : FileTree) :
    set.removeStaleAt dir time (e :: rest) tree =
      if set.isStale e.name = true ∧ tree.isFile (Path.join dir e.name) = true then
        match tree.removeFile? (Path.join dir e.name) with
        | some tree' => set.removeStaleAt dir time rest tree'
        | none => (.error (.removeStale (Path.join dir e.name)), tree)
      else set.removeStaleAt dir time rest tree := by
  unfold removeStaleAt
  simp only [removeStale]
  cases set.isStale e.name with
  | false => simp
  | true =>
    cases hfile : tree.isFile (Path.join dir e.name) with
    | false => simp [runOn_bind, hfile]
    | true =>
      cases hremove : tree.removeFile? (Path.join dir e.name) <;>
        simp [runOn_bind, runOn_demand, attempt, hfile, hremove]

/-- What a manifest lists, if there is one. -/
def listed : Option Manifest → List ManifestEntry
  | some manifest => manifest.entries
  | none => []

/-- The previous run is taken back if its manifest is there. -/
theorem clearPreviousAt_eq (set : ArtifactSet) (dir time : String) (tree : FileTree) :
    set.clearPreviousAt dir time tree =
      if tree.isPresent (Path.join dir manifestName) = true then
        match tree.removeFile? (Path.join dir manifestName) with
        | none => (.error (.removeStale (Path.join dir manifestName)), tree)
        | some tree' =>
          set.removeStaleAt dir time (listed
            ((tree.readText? (Path.join dir manifestName)).bind Manifest.parse?)) tree'
      else (.ok (), tree) := by
  unfold clearPreviousAt removeStaleAt
  simp only [clearPrevious]
  cases hpresent : tree.isPresent (Path.join dir manifestName) with
  | false => simp [runOn_bind, hpresent]
  | true =>
    cases hremove : tree.removeFile? (Path.join dir manifestName) with
    | none => simp [runOn_bind, runOn_demand, attempt, hpresent, hremove]
    | some tree' =>
      cases hprevious : (tree.readText? (Path.join dir manifestName)).bind Manifest.parse? <;>
        simp [runOn_bind, runOn_demand, attempt, hpresent, hremove, hprevious, listed, removeStale]

/-- An artifact is written once the directories that lead to it are there. -/
theorem writeArtifactAt_eq (dir time : String) (a : Artifact) (tree : FileTree) :
    writeArtifactAt dir time a tree =
      match makeParent (Path.join dir a.name) tree with
      | (false, tree') =>
        (.error (.directory ((Path.parent? (Path.join dir a.name)).getD "")), tree')
      | (true, tree') =>
        match tree'.write? (Path.join dir a.name) (.text a.content) with
        | none => (.error (.artifact (Path.join dir a.name)), tree')
        | some tree'' => (.ok (), tree'') := by
  unfold writeArtifactAt writeArtifact makeParent
  dsimp only
  cases hparent : Path.parent? (Path.join dir a.name) with
  | none =>
    cases hwrite : tree.write? (Path.join dir a.name) (.text a.content) <;>
      simp [runOn_demand, attempt, hwrite]
  | some parent =>
    rcases hmade : tree.createDirectories parent with ⟨_ | _, tree'⟩
    · simp [runOn_bind, runOn_demand, hmade]
    · cases hwrite : tree'.write? (Path.join dir a.name) (.text a.content) <;>
        simp [runOn_bind, runOn_demand, attempt, hmade, hwrite]

/-- Artifacts are written until one of them cannot be written. -/
theorem writeArtifactsAt_cons (dir time : String) (a : Artifact) (rest : List Artifact)
    (tree : FileTree) :
    writeArtifactsAt dir time (a :: rest) tree =
      match writeArtifactAt dir time a tree with
      | (.ok _, tree') => writeArtifactsAt dir time rest tree'
      | (.error e, tree') => (.error e, tree') := by
  unfold writeArtifactsAt writeArtifactAt
  simp only [writeArtifacts, runOn_bind]
  rcases runOn (@writeArtifact (StateM FileTree) _ (storeAt time) dir a) tree with ⟨_ | _, tree'⟩
  · rfl
  · rfl

/-- Writing a set goes through four stages, each of which can fail. -/
theorem writeAt_eq (set : ArtifactSet) (dir time : String) (tree : FileTree) :
    set.writeAt dir time tree =
      match tree.createDirectories dir with
      | (false, made) => (.error (.outputDirectory dir), made)
      | (true, made) =>
        match set.clearPreviousAt dir time made with
        | (.error e, cleared) => (.error e, cleared)
        | (.ok _, cleared) =>
          match writeArtifactsAt dir time set.artifacts cleared with
          | (.error e, filled) => (.error e, filled)
          | (.ok _, filled) =>
            match filled.write? (Path.join dir manifestName) (.text (set.manifest time).print) with
            | none => (.error (.manifest (Path.join dir manifestName)), filled)
            | some done => (.ok (set.manifest time), done) := by
  unfold writeAt clearPreviousAt writeArtifactsAt
  simp only [write, runOn_bind, runOn_demand, createDirectories_storeAt]
  rcases tree.createDirectories dir with ⟨_ | _, made⟩
  · rfl
  dsimp only
  rcases runOn (@clearPrevious (StateM FileTree) _ (storeAt time) set dir) made with
    ⟨_ | _, cleared⟩
  · rfl
  dsimp only
  rcases runOn (@writeArtifacts (StateM FileTree) _ (storeAt time) dir set.artifacts) cleared with
    ⟨_ | _, filled⟩
  · rfl
  cases hwrite : filled.write? (Path.join dir manifestName) (.text (set.manifest time).print) <;>
    simp [attempt, hwrite]

/-! ### Taking back the previous run -/

/-- What became of a tree from which the stale files among some names were removed. -/
structure StaleRemoved (set : ArtifactSet) (dir : String) (entries : List ManifestEntry)
    (tree tree' : FileTree) : Prop where
  /-- Nothing is touched but plain paths that are listed. -/
  keeps : Keeps (tree'.Below dir fun base place =>
    ∃ e ∈ entries, Path.isPlain e.name = true ∧ place = base ++ Path.steps e.name) tree tree'
  /-- No file is made or changed. -/
  shrinks : ∀ place, tree'.fileAt? place = tree.fileAt? place ∨ tree'.fileAt? place = none
  /-- The stale files are gone. -/
  gone : ∀ e ∈ entries, set.isStale e.name = true → ∀ place,
    tree.locate? (Path.join dir e.name) = some place → tree'.fileAt? place = none

/-- Files that are removed after others are all gone. -/
theorem StaleRemoved.cons {e : ManifestEntry} {entries : List ManifestEntry} {tree'' : FileTree}
    (hfirst : set.StaleRemoved dir [e] tree tree')
    (hrest : set.StaleRemoved dir entries tree' tree'') :
    set.StaleRemoved dir (e :: entries) tree tree'' := by
  constructor
  · refine Keeps.trans (hfirst.keeps.mono fun place hplace => ?_)
      (hrest.keeps.mono fun place hplace => ?_)
    · refine Below.mono hrest.keeps ?_ hplace
      rintro base place ⟨e', he', h⟩
      exact ⟨e', List.mem_singleton.1 he' ▸ List.mem_cons_self, h⟩
    · obtain ⟨base, hleads, e', he', h⟩ := hplace
      exact ⟨base, hleads, e', List.mem_cons_of_mem e he', h⟩
  · intro place
    rcases hrest.shrinks place with h | h
    · rw [h]
      exact hfirst.shrinks place
    · exact Or.inr h
  · intro e' he' hstale place hlocate
    rcases List.mem_cons.1 he' with rfl | he'
    · -- What is gone does not come back.
      have hgone := hfirst.gone e' List.mem_cons_self hstale place hlocate
      rcases hrest.shrinks place with h | h
      · rw [h, hgone]
      · exact h
    · exact hrest.gone e' he' hstale place (hfirst.keeps.locate? hlocate)

/-- One listed file is removed if it is stale. -/
theorem exists_removeStaleAt_cons (set : ArtifactSet) (dir time : String) (e : ManifestEntry)
    (rest : List ManifestEntry) (tree : FileTree) : ∃ tree',
    set.removeStaleAt dir time (e :: rest) tree = set.removeStaleAt dir time rest tree' ∧
      set.StaleRemoved dir [e] tree tree' := by
  rw [removeStaleAt_cons]
  by_cases hremoved : set.isStale e.name = true ∧ tree.isFile (Path.join dir e.name) = true
  · rw [if_pos hremoved]
    have hplain := (Bool.and_eq_true_iff.1 hremoved.1).1
    obtain ⟨tree', hremove⟩ := exists_removeFile? hremoved.2
    obtain ⟨place, hlocate, hgone, hkeeps⟩ := keeps_removeFile? hremove
    rw [hremove]
    refine ⟨tree', rfl, (keeps_join hplain hlocate hkeeps).mono ?_, fun other => ?_, ?_⟩
    · rintro other ⟨base, hleads, hother⟩
      exact ⟨base, hleads, e, List.mem_cons_self, hplain, hother⟩
    · by_cases hother : other = place
      · exact Or.inr (hother ▸ hgone)
      · exact Or.inl (hkeeps.files other hother)
    · intro e' he' _ place' hlocate'
      rw [List.mem_singleton.1 he', hlocate] at hlocate'
      exact Option.some.inj hlocate' ▸ hgone
  · rw [if_neg hremoved]
    refine ⟨tree, rfl, Keeps.refl _ tree, fun place => Or.inl rfl, ?_⟩
    intro e' he' hstale place hlocate
    obtain rfl := List.mem_singleton.1 he'
    -- There is nothing to remove at a stale name that does not lead to a file.
    rw [Option.eq_none_iff_forall_ne_some]
    intro content hfile
    exact hremoved ⟨hstale, isFile_eq_true.2 ⟨place, content, hlocate, hfile⟩⟩

/-- Removing stale files does not fail, and removes them all. -/
theorem removeStaleAt_spec (set : ArtifactSet) (dir time : String) (entries : List ManifestEntry)
    (tree : FileTree) : ∃ tree', set.removeStaleAt dir time entries tree = (.ok (), tree') ∧
      set.StaleRemoved dir entries tree tree' := by
  induction entries generalizing tree with
  | nil =>
    refine ⟨tree, rfl, Keeps.refl _ tree, fun place => Or.inl rfl, ?_⟩
    intro e he
    cases he
  | cons e rest ih =>
    obtain ⟨tree', hrun, hfirst⟩ := exists_removeStaleAt_cons set dir time e rest tree
    obtain ⟨tree'', hrest, hremoved⟩ := ih tree'
    exact ⟨tree'', hrun.trans hrest, hfirst.cons hremoved⟩

/-- The manifest that a tree holds in a directory, if it can be read. -/
def manifestIn? (tree : FileTree) (base : Location) : Option Manifest :=
  match tree.fileAt? (base ++ [manifestName]) with
  | some (.text s) => Manifest.parse? s
  | _ => none

/-- The locations that may be touched where a set is written into a directory: those of the
manifest, of the artifacts, and of the plain paths that the manifest of the previous run lists. -/
def Touches (set : ArtifactSet) (previous : FileTree) (base place : Location) : Prop :=
  place = base ++ [manifestName] ∨ (∃ a ∈ set.artifacts, place = base ++ Path.steps a.name) ∨
    ∃ e ∈ listed (manifestIn? previous base),
      Path.isPlain e.name = true ∧ place = base ++ Path.steps e.name

/-- What became of a tree in which the previous run was taken back. -/
structure Cleared (set : ArtifactSet) (dir : String) (tree tree' : FileTree) : Prop where
  keeps : Keeps (tree'.Below dir (set.Touches tree)) tree tree'
  /-- The manifest is gone, if it can be looked up. -/
  manifest : ∀ place, tree.locate? (Path.join dir manifestName) = some place →
    tree'.fileAt? place = none
  /-- The stale files that the manifest listed are gone. -/
  gone : ∀ base, tree.locate? (Path.join dir manifestName) = some (base ++ [manifestName]) →
    ∀ e ∈ listed (manifestIn? tree base), set.isStale e.name = true → ∀ place,
      tree.locate? (Path.join dir e.name) = some place → tree'.fileAt? place = none

/-- The name of the manifest is one plain step. -/
theorem steps_manifestName : Path.steps manifestName = [manifestName] := by decide

/-- The manifest in a directory is what the text at its path is parsed to. -/
theorem parse?_readText? {base : Location}
    (hlocate : tree.locate? (Path.join dir manifestName) = some (base ++ [manifestName])) :
    (tree.readText? (Path.join dir manifestName)).bind Manifest.parse? = manifestIn? tree base := by
  rw [readText?_eq hlocate, manifestIn?]
  cases tree.fileAt? (base ++ [manifestName]) with
  | none => rfl
  | some content => cases content <;> rfl

/-- Where there is no file at the path of the manifest, there is nothing to take back. -/
theorem cleared_refl (h : ¬ tree.isFile (Path.join dir manifestName) = true) :
    set.Cleared dir tree tree := by
  have hnone : ∀ place, tree.locate? (Path.join dir manifestName) = some place →
      tree.fileAt? place = none := by
    intro place hlocate
    rw [Option.eq_none_iff_forall_ne_some]
    intro content hfile
    exact h (isFile_eq_true.2 ⟨place, content, hlocate, hfile⟩)
  refine ⟨Keeps.refl _ tree, hnone, fun base hlocate e he => ?_⟩
  rw [manifestIn?, hnone _ hlocate] at he
  cases he

/-- The previous run is taken back once its manifest and the stale files that it lists are
removed. -/
theorem Cleared.of_removeFile? {cleared : FileTree}
    (hremove : tree.removeFile? (Path.join dir manifestName) = some tree')
    (hremoved : set.StaleRemoved dir (listed
      ((tree.readText? (Path.join dir manifestName)).bind Manifest.parse?)) tree' cleared) :
    set.Cleared dir tree cleared := by
  obtain ⟨place, hlocate, hnone, hkeeps⟩ := keeps_removeFile? hremove
  obtain ⟨base, hleads, rfl⟩ := locate?_join (by decide) hlocate
  rw [steps_manifestName] at hlocate hnone hkeeps
  rw [parse?_readText? hlocate] at hremoved
  have hleads : cleared.LeadsTo dir base := hremoved.keeps.leadsTo (hkeeps.leadsTo hleads)
  constructor
  · refine Keeps.trans (hkeeps.mono fun other hother => ⟨base, hleads, Or.inl hother⟩)
      (hremoved.keeps.mono ?_)
    rintro other ⟨base', hleads', e, he, hplain, hother⟩
    obtain rfl : base = base' := hleads.unique hleads'
    exact ⟨base, hleads, Or.inr (Or.inr ⟨e, he, hplain, hother⟩)⟩
  · intro other hother
    rw [hlocate] at hother
    obtain rfl := Option.some.inj hother
    rcases hremoved.shrinks (base ++ [manifestName]) with h | h
    · rw [h, hnone]
    · exact h
  · intro base' hlocate' e he hstale other hother
    rw [hlocate] at hlocate'
    obtain rfl : base = base' := List.append_cancel_right (Option.some.inj hlocate')
    exact hremoved.gone e he hstale other (hkeeps.locate? hother)

/-- The previous run is taken back, even where this fails. -/
theorem cleared_clearPreviousAt (set : ArtifactSet) (dir time : String) (tree : FileTree) :
    set.Cleared dir tree (set.clearPreviousAt dir time tree).2 := by
  rw [clearPreviousAt_eq]
  by_cases hpresent : tree.isPresent (Path.join dir manifestName) = true
  · rw [if_pos hpresent]
    cases hremove : tree.removeFile? (Path.join dir manifestName) with
    | none =>
      -- Only a file can be removed, and a directory of this name is left alone.
      refine cleared_refl fun hfile => ?_
      obtain ⟨tree', htree'⟩ := exists_removeFile? hfile
      rw [hremove] at htree'
      cases htree'
    | some tree' =>
      obtain ⟨cleared, hrun, hremoved⟩ := removeStaleAt_spec set dir time (listed
        ((tree.readText? (Path.join dir manifestName)).bind Manifest.parse?)) tree'
      dsimp only
      rw [hrun]
      exact Cleared.of_removeFile? hremove hremoved
  · rw [if_neg hpresent]
    refine cleared_refl fun hfile => hpresent ?_
    obtain ⟨place, content, hlocate, hfile⟩ := isFile_eq_true.1 hfile
    rw [isPresent, find?, hlocate, Option.bind_some, fileAt?_eq_some.1 hfile]
    rfl

/-! ### Writing artifacts -/

/-- An artifact that is where its name leads. -/
structure Holds (tree : FileTree) (dir : String) (base : Location) (a : Artifact) : Prop where
  located : tree.locate? (Path.join dir a.name) = some (base ++ Path.steps a.name)
  content : tree.fileAt? (base ++ Path.steps a.name) = some (.text a.content)

/-- Making the directories above a path touches no file. -/
theorem keeps_makeParent (path : String) (tree : FileTree) :
    Keeps (fun _ => False) tree (makeParent path tree).2 := by
  unfold makeParent
  split
  · exact keeps_createDirectories tree _
  · exact Keeps.refl _ tree

/-- An artifact is written, or this fails and no file is touched. -/
theorem writeArtifactAt_cases (dir time : String) {a : Artifact}
    (hplain : Path.isPlain a.name = true) (tree : FileTree) :
    (∃ e tree', writeArtifactAt dir time a tree = (.error e, tree') ∧
      Keeps (fun _ => False) tree tree') ∨
    ∃ tree' base, writeArtifactAt dir time a tree = (.ok (), tree') ∧
      tree'.LeadsTo dir base ∧ Holds tree' dir base a ∧
      Keeps (tree'.Below dir fun base place => place = base ++ Path.steps a.name) tree tree' := by
  rw [writeArtifactAt_eq]
  have hmade := keeps_makeParent (Path.join dir a.name) tree
  generalize makeParent (Path.join dir a.name) tree = result at hmade
  obtain ⟨_ | _, made⟩ := result
  · exact Or.inl ⟨_, made, rfl, hmade⟩
  dsimp only at hmade ⊢
  cases hwrite : made.write? (Path.join dir a.name) (.text a.content) with
  | none => exact Or.inl ⟨_, made, rfl, hmade⟩
  | some tree' =>
    obtain ⟨place, hlocate, hcontent, hkeeps⟩ := keeps_write? hwrite
    obtain ⟨base, hleads, rfl⟩ := locate?_join hplain hlocate
    refine Or.inr ⟨tree', base, rfl, hkeeps.leadsTo hleads, ⟨hkeeps.locate? hlocate, hcontent⟩, ?_⟩
    exact hmade.untouched.trans (keeps_join hplain hlocate hkeeps)

/-- Writing artifacts touches nothing but these, even where it fails. -/
theorem keeps_writeArtifactsAt (dir time : String) {artifacts : List Artifact}
    (hplain : ∀ a ∈ artifacts, Path.isPlain a.name = true) (tree : FileTree) :
    Keeps ((writeArtifactsAt dir time artifacts tree).2.Below dir fun base place =>
        ∃ a ∈ artifacts, place = base ++ Path.steps a.name)
      tree (writeArtifactsAt dir time artifacts tree).2 := by
  induction artifacts generalizing tree with
  | nil => exact Keeps.refl _ tree
  | cons a rest ih =>
    rw [List.forall_mem_cons] at hplain
    rw [writeArtifactsAt_cons]
    rcases writeArtifactAt_cases dir time hplain.1 tree with
      ⟨e, tree', hrun, hkeeps⟩ | ⟨tree', base, hrun, -, -, hkeeps⟩
    · rw [hrun]
      exact hkeeps.untouched
    · rw [hrun]
      have hrest := ih hplain.2 tree'
      refine Keeps.trans (hkeeps.mono fun place hplace => ?_) (hrest.mono ?_)
      · exact Below.mono hrest (fun base place h => ⟨a, List.mem_cons_self, h⟩) hplace
      · rintro place ⟨base, hleads, b, hb, hplace⟩
        exact ⟨base, hleads, b, List.mem_cons_of_mem a hb, hplace⟩

/-- Where the name of an artifact leads, there is one of the artifacts after they were written. -/
theorem held_of_writeArtifactsAt {artifacts : List Artifact}
    (hplain : ∀ a ∈ artifacts, Path.isPlain a.name = true)
    (h : writeArtifactsAt dir time artifacts tree = (.ok (), tree')) :
    ∀ a ∈ artifacts, ∃ base, tree'.LeadsTo dir base ∧
      tree'.locate? (Path.join dir a.name) = some (base ++ Path.steps a.name) ∧
      ∃ b ∈ artifacts, Path.steps b.name = Path.steps a.name ∧
        tree'.fileAt? (base ++ Path.steps a.name) = some (.text b.content) := by
  induction artifacts generalizing tree with
  | nil =>
    intro a ha
    cases ha
  | cons first rest ih =>
    rw [List.forall_mem_cons] at hplain
    rw [writeArtifactsAt_cons] at h
    rcases writeArtifactAt_cases dir time hplain.1 tree with
      ⟨e, tree'', hrun, -⟩ | ⟨tree'', base, hrun, hleads, hholds, -⟩
    · rw [hrun] at h
      cases h
    rw [hrun] at h
    dsimp only at h
    have hrest := keeps_writeArtifactsAt dir time hplain.2 tree''
    rw [h] at hrest
    intro a ha
    rcases List.mem_cons.1 ha with rfl | ha
    · refine ⟨base, hrest.leadsTo hleads, hrest.locate? hholds.located, ?_⟩
      by_cases hlater : ∃ b ∈ rest, Path.steps b.name = Path.steps a.name
      · -- A later artifact went to the same place.
        obtain ⟨b, hb, hsteps⟩ := hlater
        obtain ⟨base', hleads', -, b', hb', hsteps', hcontent⟩ := ih hplain.2 h b hb
        obtain rfl : base = base' := (hrest.leadsTo hleads).unique hleads'
        rw [hsteps] at hsteps' hcontent
        exact ⟨b', List.mem_cons_of_mem a hb', hsteps', hcontent⟩
      · -- The other artifacts are written elsewhere.
        refine ⟨a, List.mem_cons_self, rfl, ?_⟩
        rw [hrest.files _ ?_]
        · exact hholds.content
        rintro ⟨base', hleads', b, hb, hplace⟩
        obtain rfl : base = base' := (hrest.leadsTo hleads).unique hleads'
        exact hlater ⟨b, hb, (List.append_cancel_left hplace).symm⟩
    · obtain ⟨base', hleads', hlocate, b, hb, hheld⟩ := ih hplain.2 h a ha
      exact ⟨base', hleads', hlocate, b, List.mem_cons_of_mem first hb, hheld⟩

/-! ### The stages of a run -/

/-- The tree after the first stage: the output directory was made. -/
def directoryMade (dir : String) (tree : FileTree) : FileTree := (tree.createDirectories dir).2

/-- The tree after the second stage: the previous run was taken back. -/
def previousCleared (set : ArtifactSet) (dir time : String) (tree : FileTree) : FileTree :=
  (set.clearPreviousAt dir time (directoryMade dir tree)).2

/-- The tree after the third stage: the artifacts were written. -/
def artifactsWritten (set : ArtifactSet) (dir time : String) (tree : FileTree) : FileTree :=
  (writeArtifactsAt dir time set.artifacts (set.previousCleared dir time tree)).2

/-- A run ends with an error after one of the first three stages, or writes the manifest. -/
theorem writeAt_cases (set : ArtifactSet) (dir time : String) (tree : FileTree) :
    ((tree.createDirectories dir).1 = false ∧
      ∃ e, set.writeAt dir time tree = (.error e, directoryMade dir tree)) ∨
    (tree.createDirectories dir).1 = true ∧
      ((∃ e, set.writeAt dir time tree = (.error e, set.previousCleared dir time tree)) ∨
      (∃ e, set.writeAt dir time tree = (.error e, set.artifactsWritten dir time tree)) ∨
      writeArtifactsAt dir time set.artifacts (set.previousCleared dir time tree)
          = (.ok (), set.artifactsWritten dir time tree) ∧
        ∃ done, (set.artifactsWritten dir time tree).write? (Path.join dir manifestName)
            (.text (set.manifest time).print) = some done ∧
          set.writeAt dir time tree = (.ok (set.manifest time), done)) := by
  rw [writeAt_eq]
  unfold artifactsWritten previousCleared directoryMade
  rcases tree.createDirectories dir with ⟨_ | _, made⟩
  · exact Or.inl ⟨rfl, _, rfl⟩
  refine Or.inr ⟨rfl, ?_⟩
  dsimp only
  rcases set.clearPreviousAt dir time made with ⟨e | _, cleared⟩
  · exact Or.inl ⟨e, rfl⟩
  refine Or.inr ?_
  dsimp only
  rcases writeArtifactsAt dir time set.artifacts cleared with ⟨e | _, filled⟩
  · exact Or.inl ⟨e, rfl⟩
  dsimp only
  cases hwrite : filled.write? (Path.join dir manifestName) (.text (set.manifest time).print) with
  | none => exact Or.inl ⟨_, rfl⟩
  | some done => exact Or.inr ⟨rfl, done, rfl, rfl⟩

/-- What a run may touch depends on the files of the tree before it only. -/
theorem touches_congr (h : ∀ place, tree'.fileAt? place = tree.fileAt? place) :
    set.Touches tree' = set.Touches tree := by
  funext base place
  rw [Touches, Touches, manifestIn?, manifestIn?, h]

/-- Making the output directory touches no file. -/
theorem keeps_directoryMade (dir : String) (tree : FileTree) :
    Keeps (fun _ => False) tree (directoryMade dir tree) := keeps_createDirectories tree dir

/-- Taking back the previous run touches nothing but what the run may touch. -/
theorem keeps_previousCleared (set : ArtifactSet) (dir time : String) (tree : FileTree) :
    Keeps ((set.previousCleared dir time tree).Below dir (set.Touches tree)) tree
      (set.previousCleared dir time tree) := by
  have hmade := keeps_directoryMade dir tree
  have hcleared := (cleared_clearPreviousAt set dir time (directoryMade dir tree)).keeps
  rw [touches_congr fun place => hmade.files place id] at hcleared
  exact hmade.untouched.trans hcleared

section Plain

variable (hplain : ∀ a ∈ set.artifacts, Path.isPlain a.name = true)

include hplain

/-- Writing the artifacts touches nothing but what the run may touch. -/
theorem keeps_artifactsWritten (dir time : String) (tree : FileTree) :
    Keeps ((set.artifactsWritten dir time tree).Below dir (set.Touches tree)) tree
      (set.artifactsWritten dir time tree) := by
  have hwritten := keeps_writeArtifactsAt dir time hplain (set.previousCleared dir time tree)
  have hcleared := keeps_previousCleared set dir time tree
  refine (hcleared.mono fun place hplace => ?_).trans (hwritten.mono fun place hplace => ?_)
  · exact Below.mono hwritten (fun _ _ h => h) hplace
  · obtain ⟨base, hleads, hartifact⟩ := hplace
    exact ⟨base, hleads, Or.inr (Or.inl hartifact)⟩

/-- A run touches nothing but the manifest, the artifacts and what the manifest before lists. -/
theorem keeps_writeAt (dir time : String) (tree : FileTree) :
    Keeps ((set.writeAt dir time tree).2.Below dir (set.Touches tree)) tree
      (set.writeAt dir time tree).2 := by
  rcases writeAt_cases set dir time tree with
    ⟨-, e, hrun⟩ | ⟨-, ⟨e, hrun⟩ | ⟨e, hrun⟩ | ⟨-, done, hwrite, hrun⟩⟩
  · rw [hrun]
    exact (keeps_directoryMade dir tree).untouched
  · rw [hrun]
    exact keeps_previousCleared set dir time tree
  · rw [hrun]
    exact keeps_artifactsWritten hplain dir time tree
  · rw [hrun]
    obtain ⟨place, hlocate, -, hkeeps⟩ := keeps_write? hwrite
    have hmanifest := keeps_join (by decide) hlocate hkeeps
    rw [steps_manifestName] at hmanifest
    refine ((keeps_artifactsWritten hplain dir time tree).mono fun other hother => ?_).trans
      (hmanifest.mono fun other hother => ?_)
    · exact Below.mono hkeeps (fun _ _ h => h) hother
    · obtain ⟨base, hleads, hplace⟩ := hother
      exact ⟨base, hleads, Or.inl hplace⟩

/-- Where the current directory is gone, a run into it changes nothing. -/
theorem writeAt_stuck (time : String) (hcurrent : tree.isDirectoryAt tree.current = false) :
    (set.writeAt "" time tree).2 = tree := by
  have hrelative : ∀ name, Path.isAbsolute name = false →
      Path.isAbsolute (Path.join "" name) = false := by
    intro name hname
    simp [Path.join, hname]
  have hmade : directoryMade "" tree = tree := rfl
  have hcleared : set.previousCleared "" time tree = tree := by
    rw [previousCleared, hmade, clearPreviousAt_eq, isPresent, find?,
      locate?_stuck hcurrent (hrelative manifestName (by decide))]
    rfl
  have hwritten : set.artifactsWritten "" time tree = tree := by
    rw [artifactsWritten, hcleared]
    cases hartifacts : set.artifacts with
    | nil => rfl
    | cons a rest =>
      -- Not even the first artifact can be written.
      have ha := hplain a (hartifacts ▸ List.mem_cons_self)
      have hname := hrelative a.name (Path.isPlain_spec ha).1
      have hparent : (makeParent (Path.join "" a.name) tree).2 = tree := by
        unfold makeParent
        split
        · rename_i parent hparent
          exact createDirectories_stuck hcurrent (isAbsolute_of_parent? hparent hname)
        · rfl
      rw [writeArtifactsAt_cons, writeArtifactAt_eq]
      generalize makeParent (Path.join "" a.name) tree = result at hparent
      obtain ⟨_ | _, made⟩ := result
      · exact hparent
      obtain rfl : made = tree := hparent
      have hwrite : made.write? (Path.join "" a.name) (.text a.content) = none := by
        rw [write?, locate?_stuck hcurrent hname]
      dsimp only
      rw [hwrite]
  rcases writeAt_cases set "" time tree with
    ⟨-, e, hrun⟩ | ⟨-, ⟨e, hrun⟩ | ⟨e, hrun⟩ | ⟨-, done, hwrite, -⟩⟩
  · rw [hrun, hmade]
  · rw [hrun, hcleared]
  · rw [hrun, hwritten]
  · rw [hwritten, write?, locate?_stuck hcurrent (hrelative manifestName (by decide))] at hwrite
    cases hwrite

/-- All directories that are there once the output directory was made stay there. -/
theorem keeps_directories (dir time : String) (tree : FileTree) :
    Keeps (fun _ => True) (directoryMade dir tree) (set.writeAt dir time tree).2 := by
  have hcleared : Keeps (fun _ => True) (directoryMade dir tree)
      (set.previousCleared dir time tree) :=
    (cleared_clearPreviousAt set dir time (directoryMade dir tree)).keeps.forget
  have hwritten : Keeps (fun _ => True) (directoryMade dir tree)
      (set.artifactsWritten dir time tree) :=
    hcleared.trans (keeps_writeArtifactsAt dir time hplain _).forget
  rcases writeAt_cases set dir time tree with
    ⟨-, e, hrun⟩ | ⟨-, ⟨e, hrun⟩ | ⟨e, hrun⟩ | ⟨-, done, hwrite, hrun⟩⟩
  · rw [hrun]
    exact Keeps.refl _ _
  · rw [hrun]
    exact hcleared
  · rw [hrun]
    exact hwritten
  · rw [hrun]
    obtain ⟨place, -, -, hkeeps⟩ := keeps_write? hwrite
    exact hwritten.trans hkeeps.forget

/-- Where a run leaves the output directory, it was from the time when it was made. -/
theorem leadsTo_directoryMade {base : Location} (hmade : (tree.createDirectories dir).1 = true)
    (hleads : (set.writeAt dir time tree).2.LeadsTo dir base) :
    (directoryMade dir tree).LeadsTo dir base := by
  have hkeeps := keeps_directories hplain dir time tree
  by_cases hempty : dir = ""
  · subst hempty
    have hcurrent : tree.isDirectoryAt tree.current = true := by
      by_contra hcurrent
      rw [Bool.not_eq_true] at hcurrent
      rw [writeAt_stuck hplain time hcurrent, leadsTo_empty] at hleads
      rw [hleads.1, hleads.2] at hcurrent
      cases hcurrent
    have hmade : (directoryMade "" tree).LeadsTo "" tree.current := leadsTo_empty.2 ⟨rfl, hcurrent⟩
    exact (hkeeps.leadsTo hmade).unique hleads ▸ hmade
  · obtain ⟨base', hbase'⟩ := leadsTo_of_createDirectories hempty hmade
    exact (hkeeps.leadsTo hbase').unique hleads ▸ hbase'

end Plain

/-! ### The manifest -/

/-- A set whose names are plain paths, and none of them to the manifest. -/
structure HasPlainNames (set : ArtifactSet) : Prop where
  plain : ∀ a ∈ set.artifacts, Path.isPlain a.name = true
  apart : ∀ a ∈ set.artifacts, Path.steps a.name ≠ [manifestName]

/-- Writing the artifacts does not touch the manifest. -/
theorem fileAt?_artifactsWritten (h : set.HasPlainNames) {base : Location}
    (hleads : (set.artifactsWritten dir time tree).LeadsTo dir base) :
    (set.artifactsWritten dir time tree).fileAt? (base ++ [manifestName])
      = (set.previousCleared dir time tree).fileAt? (base ++ [manifestName]) := by
  refine (keeps_writeArtifactsAt dir time h.plain _).files _ ?_
  rintro ⟨base', hleads', a, ha, hplace⟩
  obtain rfl : base = base' := hleads.unique hleads'
  exact h.apart a ha (List.append_cancel_left hplace).symm

end ArtifactSet

end Grounder
