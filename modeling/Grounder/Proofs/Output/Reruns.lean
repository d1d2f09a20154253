import Grounder.Proofs.Output.Manifest
import Grounder.Proofs.Output.Write
import Mathlib.Data.List.Nodup

/-!
# `Grounder.Proofs.Output.Reruns`: running again and again

Every run of a sequence finds the manifest of the run before it, removes what that run wrote and
this one does not, and writes its own files. So after the last run the output directory holds the
last set with its manifest, and the files that were there before the first run (`reruns_converge`).

The induction is over the runs. What it carries (`Settled`) speaks of the last run only: the
artifacts are where their names lead, and every other file is as it was before the first run. That
they still can be looked up is what lets the next run remove them.
-/

set_option autoImplicit false

namespace Grounder

open FileTree hiding set

namespace ArtifactSet

variable {set : ArtifactSet} {dir time : String} {tree tree' before : FileTree} {base : Location}

/-- A set whose names are plain paths to different places, and none of them to the manifest. -/
structure NamesFiles (set : ArtifactSet) : Prop extends HasPlainNames set where
  nodup : (set.artifacts.map fun a => Path.steps a.name).Nodup

/-! ### One run -/

/-- What a run that succeeds makes of a tree if several artifacts may be at one place. -/
structure Landed (set : ArtifactSet) (dir time : String) (base : Location)
    (tree tree' : FileTree) : Prop where
  leads : tree'.LeadsTo dir base
  manifest : tree'.fileAt? (base ++ [manifestName]) = some (.text (set.manifest time).print)
  located : ∀ a ∈ set.artifacts,
    tree'.locate? (Path.join dir a.name) = some (base ++ Path.steps a.name)
  /-- Where an artifact leads, there is one of those that lead there. -/
  held : ∀ a ∈ set.artifacts, Path.steps a.name ≠ [manifestName] →
    ∃ b ∈ set.artifacts, Path.steps b.name = Path.steps a.name ∧
      tree'.fileAt? (base ++ Path.steps a.name) = some (.text b.content)
  /-- What the manifest before lists and the set does not hold is gone. -/
  gone : ∀ e ∈ listed (manifestIn? tree base), set.isStale e.name = true → ∀ place,
    tree.locate? (Path.join dir e.name) = some place → place ≠ base ++ [manifestName] →
      (∀ a ∈ set.artifacts, place ≠ base ++ Path.steps a.name) → tree'.fileAt? place = none
  /-- Everything else is as it was before. -/
  others : ∀ place, ¬ set.Touches tree base place → tree'.fileAt? place = tree.fileAt? place

/-- What a run that succeeds makes of a tree. -/
structure Written (set : ArtifactSet) (dir time : String) (base : Location)
    (tree tree' : FileTree) : Prop extends Landed set dir time base tree tree' where
  holds : ∀ a ∈ set.artifacts, Holds tree' dir base a

/-- A run of a set with plain names that succeeds puts it into the tree, and answers its
manifest. -/
theorem exists_landed (hplain : ∀ a ∈ set.artifacts, Path.isPlain a.name = true)
    {manifest : Manifest} (hrun : set.writeAt dir time tree = (.ok manifest, tree')) :
    manifest = set.manifest time ∧ ∃ base, set.Landed dir time base tree tree' := by
  rcases writeAt_cases set dir time tree with
    ⟨-, e, herror⟩ | ⟨hmade, ⟨e, herror⟩ | ⟨e, herror⟩ | ⟨hartifacts, done, hwrite, hdone⟩⟩
  iterate 3
    rw [herror] at hrun
    cases hrun
  have hkeeps := keeps_writeAt hplain dir time tree
  have hleadsMade : ∀ base, (set.writeAt dir time tree).2.LeadsTo dir base →
      (directoryMade dir tree).LeadsTo dir base := fun base => leadsTo_directoryMade hplain hmade
  rw [hdone] at hrun hkeeps hleadsMade
  cases hrun
  obtain ⟨place, hlocate, hmanifest, hlast⟩ := keeps_write? hwrite
  obtain ⟨base, hleads, rfl⟩ := locate?_join (by decide) hlocate
  rw [steps_manifestName] at hlocate hmanifest hlast
  have hleadsDone := hlast.leadsTo hleads
  have hwritten := keeps_writeArtifactsAt dir time hplain (set.previousCleared dir time tree)
  have hheld := held_of_writeArtifactsAt hplain hartifacts
  -- Only the manifest is written after the artifacts, so all other files are as these left them.
  refine ⟨rfl, base, hleadsDone, hmanifest, fun a ha => ?_, fun a ha hapart => ?_, ?_,
    fun place hplace => ?_⟩
  · obtain ⟨base', hleads', hlocated, -⟩ := hheld a ha
    obtain rfl : base = base' := hleads.unique hleads'
    exact hlast.locate? hlocated
  · obtain ⟨base', hleads', -, b, hb, hsteps, hcontent⟩ := hheld a ha
    obtain rfl : base = base' := hleads.unique hleads'
    refine ⟨b, hb, hsteps, ?_⟩
    rw [hlast.files _ fun heq => hapart (List.append_cancel_left heq)]
    exact hcontent
  · intro e he hstale place hplace hne hapart
    -- What was removed first has not been written again since.
    rw [hlast.files place hne]
    have huntouched : (set.artifactsWritten dir time tree).fileAt? place
        = (set.previousCleared dir time tree).fileAt? place := by
      refine hwritten.files place ?_
      rintro ⟨base', hleads', a, ha, heq⟩
      obtain rfl : base = base' := hleads.unique hleads'
      exact hapart a ha heq
    rw [huntouched]
    have hdirectory := keeps_directoryMade dir tree
    have hprevious : manifestIn? (directoryMade dir tree) base = manifestIn? tree base := by
      rw [manifestIn?, manifestIn?, hdirectory.files _ id]
    have hlocateMade := locate?_join_name (hleadsMade base hleadsDone)
      (locate?_eq_some.1 hlocate).1 (by decide) (by decide) (by decide) (by decide)
    exact (cleared_clearPreviousAt set dir time (directoryMade dir tree)).gone base hlocateMade e
      (hprevious ▸ he) hstale place (hdirectory.locate? hplace)
  · refine hkeeps.files place ?_
    rintro ⟨base', hleads', htouched⟩
    obtain rfl : base = base' := hleadsDone.unique hleads'
    exact hplace htouched

/-- A run that succeeds has written the set, and answers its manifest. -/
theorem exists_written (h : set.NamesFiles) {manifest : Manifest}
    (hrun : set.writeAt dir time tree = (.ok manifest, tree')) :
    manifest = set.manifest time ∧ ∃ base, set.Written dir time base tree tree' := by
  obtain ⟨hmanifest, base, hlanded⟩ := exists_landed h.plain hrun
  refine ⟨hmanifest, base, hlanded, fun a ha => ?_⟩
  -- No other artifact leads to the same place.
  obtain ⟨b, hb, hsteps, hcontent⟩ := hlanded.held a ha (h.apart a ha)
  obtain rfl : b = a := List.inj_on_of_nodup_map h.nodup hb ha hsteps
  exact ⟨hlanded.located b ha, hcontent⟩

/-- The manifest that a run left is read by the next one. -/
theorem manifestIn?_of_print
    (h : tree.fileAt? (base ++ [manifestName]) = some (.text (set.manifest time).print)) :
    manifestIn? tree base = some (set.manifest time) := by
  rw [manifestIn?, h]
  exact Manifest.parse?_print (set.manifest time)

/-- The next run finds every artifact of the run before it in the manifest. -/
theorem mem_listed_of_print {a : Artifact} (ha : a ∈ set.artifacts)
    (h : tree.fileAt? (base ++ [manifestName]) = some (.text (set.manifest time).print)) :
    ⟨a.name, a.digest, .ofNat a.byteCount⟩ ∈ listed (manifestIn? tree base) := by
  rw [manifestIn?_of_print h]
  exact List.mem_map.2 ⟨a, ha, rfl⟩

/-- A plain name is stale for a set of which no artifact leads to the same place. -/
theorem isStale_of_apart {name : String} (hplain : Path.isPlain name = true)
    (h : ∀ a ∈ set.artifacts, Path.steps a.name ≠ Path.steps name) : set.isStale name = true := by
  have hmissing : set.get? name = none := by
    rw [get?, List.find?_eq_none]
    intro a ha hname
    have hname : a.name = name := of_decide_eq_true hname
    exact h a (List.mem_reverse.1 ha) (by rw [hname])
  rw [isStale, hplain, hmissing]
  rfl

/-! ### Many runs -/

/-- The tree after runs into a directory, each with its set and its time, if none of them fails. -/
def rewrite? (dir : String) : List (ArtifactSet × String) → FileTree → Option FileTree
  | [], tree => some tree
  | run :: rest, tree =>
    match run.1.writeAt dir run.2 tree with
    | (.ok _, tree') => rewrite? dir rest tree'
    | (.error _, _) => none

/-- A tree without a file where writing the set puts one. -/
def Spares (set : ArtifactSet) (before : FileTree) (base : Location) : Prop :=
  before.fileAt? (base ++ [manifestName]) = none ∧
    ∀ a ∈ set.artifacts, before.fileAt? (base ++ Path.steps a.name) = none

/-- What a tree holds after runs, the last of which was that of the set: the set, its manifest, and
what was there before all of them. -/
structure Settled (set : ArtifactSet) (dir time : String) (base : Location)
    (before tree : FileTree) : Prop where
  leads : tree.LeadsTo dir base
  manifest : tree.fileAt? (base ++ [manifestName]) = some (.text (set.manifest time).print)
  holds : ∀ a ∈ set.artifacts, Holds tree dir base a
  others : ∀ place, place ≠ base ++ [manifestName] →
    (∀ a ∈ set.artifacts, place ≠ base ++ Path.steps a.name) →
      tree.fileAt? place = before.fileAt? place

/-- The first run leaves the other files as they were. -/
theorem Written.settled (h : set.Written dir time base tree tree')
    (hspares : set.Spares tree base) :
    set.Settled dir time base tree tree' := by
  refine ⟨h.leads, h.manifest, h.holds, fun place hmanifest hartifacts => h.others place ?_⟩
  rintro (hplace | ⟨a, ha, hplace⟩ | ⟨e, he, -⟩)
  · exact hmanifest hplace
  · exact hartifacts a ha hplace
  · rw [manifestIn?, hspares.1] at he
    cases he

/-- Every further run replaces what the run before it wrote, and leaves the other files as they
were. -/
theorem Settled.next {next : ArtifactSet} {time' : String}
    (h : set.Settled dir time base before tree) (hnames : set.NamesFiles)
    (hspares : set.Spares before base) (hnext : next.Written dir time' base tree tree') :
    next.Settled dir time' base before tree' := by
  refine ⟨hnext.leads, hnext.manifest, hnext.holds, fun place hmanifest hartifacts => ?_⟩
  have hentries : listed (manifestIn? tree base) = (set.manifest time).entries := by
    rw [manifestIn?_of_print h.manifest]
    rfl
  by_cases hprevious : ∃ a ∈ set.artifacts, place = base ++ Path.steps a.name
  · -- This is a file of the run before, which the next set does not hold.
    obtain ⟨a, ha, rfl⟩ := hprevious
    rw [hspares.2 a ha]
    have hstale : next.isStale a.name = true := isStale_of_apart (hnames.plain a ha)
      fun b hb hsteps => hartifacts b hb (by rw [hsteps])
    exact hnext.gone _ (mem_listed_of_print ha h.manifest) hstale _ (h.holds a ha).located
      hmanifest hartifacts
  · rw [← h.others place hmanifest fun a ha hplace => hprevious ⟨a, ha, hplace⟩]
    refine hnext.others place ?_
    rintro (hplace | ⟨a, ha, hplace⟩ | ⟨e, he, -, hplace⟩)
    · exact hmanifest hplace
    · exact hartifacts a ha hplace
    · rw [hentries] at he
      obtain ⟨a, ha, rfl⟩ := List.mem_map.1 he
      exact hprevious ⟨a, ha, hplace⟩

/-- A sequence of runs succeeds if the first one does, and then the others. -/
theorem rewrite?_cons {run : ArtifactSet × String} {rest : List (ArtifactSet × String)} :
    rewrite? dir (run :: rest) tree = some tree' ↔ ∃ manifest middle,
      run.1.writeAt dir run.2 tree = (.ok manifest, middle) ∧
        rewrite? dir rest middle = some tree' := by
  rw [rewrite?]
  rcases run.1.writeAt dir run.2 tree with ⟨e | manifest, middle⟩ <;> simp

/-- A sequence of runs keeps all directories. -/
theorem keeps_rewrite? {runs : List (ArtifactSet × String)}
    (hnames : ∀ run ∈ runs, run.1.NamesFiles) (h : rewrite? dir runs tree = some tree') :
    Keeps (fun _ => True) tree tree' := by
  induction runs generalizing tree with
  | nil =>
    cases h
    exact Keeps.refl _ _
  | cons run rest ih =>
    rw [List.forall_mem_cons] at hnames
    obtain ⟨manifest, middle, hrun, hrest⟩ := rewrite?_cons.1 h
    have hkeeps := keeps_writeAt hnames.1.plain dir run.2 tree
    rw [hrun] at hkeeps
    exact hkeeps.forget.trans (ih hnames.2 hrest)

/-- After further runs, the tree holds what the last of them left. -/
theorem Settled.rewrite? {runs : List (ArtifactSet × String)} {run : ArtifactSet × String}
    (h : run.1.Settled dir run.2 base before tree)
    (hnames : ∀ r ∈ run :: runs, r.1.NamesFiles)
    (hspares : ∀ r ∈ run :: runs, r.1.Spares before base)
    (hruns : rewrite? dir runs tree = some tree') :
    (runs.getLastD run).1.Settled dir (runs.getLastD run).2 base before tree' := by
  induction runs generalizing run tree with
  | nil =>
    cases hruns
    exact h
  | cons next rest ih =>
    rw [List.forall_mem_cons] at hnames hspares
    obtain ⟨manifest, middle, hrun, hrest⟩ := rewrite?_cons.1 hruns
    have hnext := hnames.2 next List.mem_cons_self
    obtain ⟨-, base', hwritten⟩ := exists_written hnext hrun
    -- The directory is still where it was.
    have hkeeps := keeps_writeAt hnext.plain dir next.2 tree
    rw [hrun] at hkeeps
    obtain rfl : base = base' := (hkeeps.leadsTo h.leads).unique hwritten.leads
    rw [List.getLastD_cons]
    exact ih (h.next hnames.1 hspares.1 hwritten) hnames.2 hspares.2 hrest

/-- Under a directory in which runs have settled, there are the files of the last set, its manifest
and the files from before, and no others. -/
theorem Settled.fileAt?_eq_some (h : set.Settled dir time base before tree)
    (hspares : set.Spares before base) {below : Location} {content : FileContent} :
    tree.fileAt? (base ++ below) = some content ↔
      (below = [manifestName] ∧ content = .text (set.manifest time).print) ∨
      (∃ a ∈ set.artifacts, below = Path.steps a.name ∧ content = .text a.content) ∨
      before.fileAt? (base ++ below) = some content := by
  constructor
  · intro hfile
    by_cases hmanifest : below = [manifestName]
    · subst hmanifest
      rw [h.manifest] at hfile
      exact Or.inl ⟨rfl, (Option.some.inj hfile).symm⟩
    by_cases hartifact : ∃ a ∈ set.artifacts, below = Path.steps a.name
    · obtain ⟨a, ha, rfl⟩ := hartifact
      rw [(h.holds a ha).content] at hfile
      exact Or.inr (Or.inl ⟨a, ha, rfl, (Option.some.inj hfile).symm⟩)
    · rw [h.others _ (fun heq => hmanifest (List.append_cancel_left heq)) fun a ha heq =>
        hartifact ⟨a, ha, List.append_cancel_left heq⟩] at hfile
      exact Or.inr (Or.inr hfile)
  · rintro (⟨rfl, rfl⟩ | ⟨a, ha, rfl, rfl⟩ | hfile)
    · exact h.manifest
    · exact (h.holds a ha).content
    · -- No set puts a file where one was before.
      rw [h.others (base ++ below)]
      · exact hfile
      · intro heq
        rw [heq, hspares.1] at hfile
        cases hfile
      · intro a ha heq
        rw [heq, hspares.2 a ha] at hfile
        cases hfile

/-- After a sequence of runs into a directory, all of which succeed, this directory holds the files
of the last set, its manifest, and nothing else but the files that were there before, if none of
them was where a set of the sequence puts one. The manifest is read as that of the last set, and its
digests and sizes are those of the files. -/
theorem reruns_converge {runs : List (ArtifactSet × String)} {last : ArtifactSet × String}
    (hnames : ∀ run ∈ runs, run.1.NamesFiles) (hlast : runs.getLast? = some last)
    (hruns : rewrite? dir runs tree = some tree') :
    ∃ base, tree'.LeadsTo dir base ∧ (∀ other, tree.LeadsTo dir other → other = base) ∧
      ((∀ run ∈ runs, run.1.Spares tree base) →
        (∀ below content, tree'.fileAt? (base ++ below) = some content ↔
          (below = [manifestName] ∧ content = .text (last.1.manifest last.2).print) ∨
          (∃ a ∈ last.1.artifacts, below = Path.steps a.name ∧ content = .text a.content) ∨
          tree.fileAt? (base ++ below) = some content) ∧
        manifestIn? tree' base = some (last.1.manifest last.2) ∧
        ∀ e ∈ (last.1.manifest last.2).entries, ∃ text,
          tree'.fileAt? (base ++ Path.steps e.name) = some (.text text) ∧
            e.digest = Text.Sha256.hexDigest text ∧ e.bytes = .ofNat text.utf8ByteSize) := by
  have hkeeps := keeps_rewrite? hnames hruns
  have hlastMem := List.mem_of_getLast? hlast
  cases runs with
  | nil => cases hlast
  | cons first rest =>
    obtain ⟨manifest, middle, hrun, hrest⟩ := rewrite?_cons.1 hruns
    have hfirst := hnames first List.mem_cons_self
    obtain ⟨-, base, hwritten⟩ := exists_written hfirst hrun
    have hleads : tree'.LeadsTo dir base :=
      (keeps_rewrite? (fun run hrun => hnames run (List.mem_cons_of_mem first hrun)) hrest).leadsTo
        hwritten.leads
    refine ⟨base, hleads, fun other hother => (hkeeps.leadsTo hother).unique hleads, ?_⟩
    intro hspares
    have hsettled := hwritten.settled (hspares first List.mem_cons_self)
    replace hsettled := hsettled.rewrite? hnames hspares hrest
    rw [List.getLast?_cons, ← List.getLastD_eq_getLast?] at hlast
    rw [Option.some.inj hlast] at hsettled
    have hspare : last.1.Spares tree base := hspares last hlastMem
    refine ⟨fun below content => hsettled.fileAt?_eq_some hspare,
      manifestIn?_of_print hsettled.manifest, ?_⟩
    intro e he
    obtain ⟨a, ha, rfl⟩ := List.mem_map.1 he
    exact ⟨a.content, (hsettled.holds a ha).content, rfl, rfl⟩

/-- Some notes in an output directory. -/
def notesTree : FileTree :=
  ⟨[], [(["out"], .directory), (["out", "notes.txt"], .file (.text "mine"))]⟩

/-- Two runs, the second of which has one artifact. -/
def growingRuns : List (ArtifactSet × String) :=
  [(⟨[]⟩, "now"), (⟨[⟨"actions/keep.hxx", "new"⟩]⟩, "later")]

/-- After `growingRuns`, there are the artifact, the manifest of the second run, and the notes. -/
theorem reruns_converge_notes :
    ∃ tree', rewrite? "out" growingRuns notesTree = some tree' ∧
      tree'.fileAt? ["out", "actions", "keep.hxx"] = some (.text "new") ∧
      tree'.fileAt? ["out", "notes.txt"] = some (.text "mine") ∧
      manifestIn? tree' ["out"]
        = some ((⟨[⟨"actions/keep.hxx", "new"⟩]⟩ : ArtifactSet).manifest "later") := by
  have hsucceeds : (rewrite? "out" growingRuns notesTree).isSome = true := by decide +kernel
  obtain ⟨tree', hruns⟩ := Option.isSome_iff_exists.1 hsucceeds
  have hnames : ∀ run ∈ growingRuns, run.1.NamesFiles := by
    intro run hrun
    rcases List.mem_cons.1 hrun with rfl | hrun
    · exact ⟨⟨by decide, by decide⟩, by decide⟩
    · obtain rfl := List.mem_singleton.1 hrun
      exact ⟨⟨by decide, by decide⟩, by decide⟩
  have hspares : ∀ run ∈ growingRuns, run.1.Spares notesTree ["out"] := by
    intro run hrun
    rcases List.mem_cons.1 hrun with rfl | hrun
    · exact ⟨by decide, by decide⟩
    · obtain rfl := List.mem_singleton.1 hrun
      exact ⟨by decide, by decide⟩
  obtain ⟨base, -, hbase, hsettled⟩ := reruns_converge hnames rfl hruns
  obtain rfl : ["out"] = base := hbase ["out"] ⟨by decide, by decide⟩
  obtain ⟨hfiles, hmanifest, -⟩ := hsettled hspares
  refine ⟨tree', hruns, ?_, ?_, hmanifest⟩
  · exact (hfiles ["actions", "keep.hxx"] _).2
      (Or.inr (Or.inl ⟨_, List.mem_singleton.2 rfl, by decide, rfl⟩))
  · exact (hfiles ["notes.txt"] _).2 (Or.inr (Or.inr rfl))

end ArtifactSet

end Grounder
