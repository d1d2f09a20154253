import Grounder.Proofs.Output.Reruns

/-!
# `Grounder.Proofs.Output.Containment`: files below the output directory

A set whose names are plain paths stays below the directory it is written into, and what it leaves
there can be taken back: the next run removes every file that the set wrote and that it does not
write itself (`staysBelow_of_hasPlainNames`). An artifact with another name is written wherever the
name leads, and no later run counts it as stale (`not_isStale_of_not_isPlain`).
-/

set_option autoImplicit false

namespace Grounder

open FileTree hiding set

namespace ArtifactSet

variable {set : ArtifactSet} {dir time : String} {tree : FileTree}

/-- What keeps a run of a set in the directory it writes into. -/
structure StaysBelow (set : ArtifactSet) (dir time : String) (tree : FileTree) : Prop where
  /-- Even if the run fails, all files that it makes, changes or removes are below the directory. -/
  below : ∀ place, (set.writeAt dir time tree).2.fileAt? place ≠ tree.fileAt? place →
    ∃ base, (set.writeAt dir time tree).2.LeadsTo dir base ∧ base <+: place
  /-- If it succeeds, every artifact has led to a file below the directory. -/
  written : ∀ manifest tree', set.writeAt dir time tree = (.ok manifest, tree') →
    ∃ base, tree'.LeadsTo dir base ∧ ∀ a ∈ set.artifacts, Path.steps a.name ≠ [] ∧
      ∃ b ∈ set.artifacts, Path.steps b.name = Path.steps a.name ∧
        tree'.fileAt? (base ++ Path.steps a.name) = some (.text b.content)
  /-- The next run that succeeds removes the file if it has none there. -/
  takenBack : ∀ manifest tree', set.writeAt dir time tree = (.ok manifest, tree') →
    ∀ (next : ArtifactSet) (time' : String) manifest' tree'',
      (∀ b ∈ next.artifacts, Path.isPlain b.name = true) →
      next.writeAt dir time' tree' = (.ok manifest', tree'') →
      ∀ a ∈ set.artifacts, (∀ b ∈ next.artifacts, Path.steps b.name ≠ Path.steps a.name) →
        ∀ base, tree'.LeadsTo dir base → tree''.fileAt? (base ++ Path.steps a.name) = none

/-- Plain names stay below the directory, if they name files other than the manifest. -/
theorem staysBelow_of_hasPlainNames (h : set.HasPlainNames)
    (hsteps : ∀ a ∈ set.artifacts, Path.steps a.name ≠ []) : set.StaysBelow dir time tree := by
  constructor
  · intro place hchanged
    -- What is touched is below the directory, wherever the run has ended.
    by_contra hbelow
    refine hchanged ((keeps_writeAt h.plain dir time tree).files place ?_)
    rintro ⟨base, hleads, htouched⟩
    refine hbelow ⟨base, hleads, ?_⟩
    rcases htouched with rfl | ⟨a, -, rfl⟩ | ⟨e, -, -, rfl⟩
    · exact List.prefix_append base _
    · exact List.prefix_append base _
    · exact List.prefix_append base _
  · intro manifest tree' hrun
    obtain ⟨-, base, hlanded⟩ := exists_landed h.plain hrun
    exact ⟨base, hlanded.leads, fun a ha => ⟨hsteps a ha, hlanded.held a ha (h.apart a ha)⟩⟩
  · intro manifest tree' hrun next time' manifest' tree'' hnext hrun' a ha hother base hleads
    obtain ⟨-, base', hlanded⟩ := exists_landed h.plain hrun
    obtain rfl : base' = base := hlanded.leads.unique hleads
    obtain ⟨-, base'', hlanded'⟩ := exists_landed hnext hrun'
    obtain rfl : base' = base'' := by
      have hkeeps := keeps_writeAt hnext dir time' tree'
      rw [hrun'] at hkeeps
      exact (hkeeps.leadsTo hleads).unique hlanded'.leads
    -- The second run finds the artifact in the manifest of the first one.
    refine hlanded'.gone _ (mem_listed_of_print ha hlanded.manifest)
      (isStale_of_apart (h.plain a ha) hother) _ (hlanded.located a ha) ?_ ?_
    · exact fun heq => h.apart a ha (List.append_cancel_left heq)
    · exact fun b hb heq => hother b hb (List.append_cancel_left heq).symm

/-- No run counts a file as stale whose name is not plain, whatever it writes itself. -/
theorem not_isStale_of_not_isPlain {name : String} (h : Path.isPlain name = false)
    (set : ArtifactSet) : set.isStale name = false := by
  rw [isStale, h]
  rfl

end ArtifactSet

end Grounder
