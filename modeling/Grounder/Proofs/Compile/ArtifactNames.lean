import Grounder.Proofs.Compile.Containment

/-!
# `Grounder.Proofs.Compile.ArtifactNames`: which artifacts share a name

The unit of an action is named after the action alone, and nothing asks for actions to have different
names. So two actions of one name make two artifacts of one name, and the later one is written over
the earlier one. No other artifacts share a name: those of constraints carry a number, the symbols of
a table are different, and the folders tell the kinds of files apart.

`artifact_names_unique_iff` says that names are unique exactly when those of the actions are, and
when all artifacts get files of their own. `twin_actions` is a task that compiles to two artifacts of
one name.
-/

set_option autoImplicit false

namespace Grounder

open Rendering TemplateCache Proofs.Support

namespace CodeSource

variable {t : Task} {o : CompileOptions} {overrides : Overrides} {g : CodeSource}
  {set : ArtifactSet}

/-! ### Names -/

/-- The file of an action tells the action. -/
theorem actionUnitName_injective : Function.Injective actionUnitName := by
  intro name name' h
  have hlist := congrArg String.toList h
  simp only [actionUnitName, String.toList_append, List.append_assoc,
    List.append_cancel_left_eq, List.append_cancel_right_eq] at hlist
  exact String.toList_inj.1 hlist

/-- The artifacts that are not units of actions have different names, and none of them has the name
of the unit of an action. -/
theorem nodup_apart_from_actions (hg : ofTask t o = .ok g) :
    (g.plan.deferred.map NumberedUse.unitName ++ g.otherNames).Nodup ∧
      ∀ action, actionUnitName action
        ∉ g.plan.deferred.map NumberedUse.unitName ++ g.otherNames := by
  obtain ⟨htask, hplan⟩ := task_and_plan_of_ofTask hg
  constructor
  · rw [List.nodup_append']
    refine ⟨nodup_deferredNames (htask ▸ hplan), nodup_otherNames (build_of_ofTask hg), ?_⟩
    intro name hconstraint hother
    obtain ⟨c, -, rfl⟩ := List.mem_map.1 hconstraint
    exact unitName_not_mem_otherNames c hother
  · intro action hmem
    rcases List.mem_append.1 hmem with hmem | hmem
    · obtain ⟨c, -, hc⟩ := List.mem_map.1 hmem
      exact actionUnitName_ne_unitName action c hc.symm
    · exact not_isUnitName_of_mem_otherNames hmem
        ⟨action ++ ".hxx", Or.inl (by rw [actionUnitName, String.append_assoc])⟩

/-- The names of the artifacts: those of the units of the actions, and all others. -/
theorem names_of_actions_and_others (hg : ofTask t o = .ok g)
    (hset : g.artifactsAfresh overrides = .ok set) :
    set.names.Perm ((t.actions.map fun a => actionUnitName a.name) ++
      (g.plan.deferred.map NumberedUse.unitName ++ g.otherNames)) := by
  rw [← List.append_assoc, ← (task_and_plan_of_ofTask hg).1]
  exact names_of_artifactsAfresh hset

/-- There are as many artifacts of the name of an action as there are actions of this name. -/
theorem count_actionUnitName (hg : ofTask t o = .ok g)
    (hset : g.artifactsAfresh overrides = .ok set) (action : String) :
    set.names.count (actionUnitName action) = t.actions.countP (·.name = action) := by
  have hothers := (nodup_apart_from_actions hg).2 action
  -- Only the units of actions count, and different actions have different units.
  rw [(names_of_actions_and_others hg hset).count_eq, List.count_append,
    List.count_eq_zero.2 hothers, Nat.add_zero, List.count, List.countP_map]
  refine List.countP_congr fun a _ => ?_
  simp [actionUnitName_injective.eq_iff]

/-- The name of any other artifact occurs once. -/
theorem count_le_one (hg : ofTask t o = .ok g) (hset : g.artifactsAfresh overrides = .ok set)
    {name : String} (h : ∀ a ∈ t.actions, actionUnitName a.name ≠ name) :
    set.names.count name ≤ 1 := by
  have hactions : (t.actions.map fun a => actionUnitName a.name).count name = 0 := by
    rw [List.count_eq_zero]
    intro hmem
    obtain ⟨a, ha, hname⟩ := List.mem_map.1 hmem
    exact h a ha hname
  rw [(names_of_actions_and_others hg hset).count_eq, List.count_append, hactions, Nat.zero_add]
  exact List.nodup_iff_count_le_one.1 (nodup_apart_from_actions hg).1 name

/-- The names of the artifacts are different exactly when those of the actions are. -/
theorem nodup_names_iff (hg : ofTask t o = .ok g) (hset : g.artifactsAfresh overrides = .ok set) :
    set.names.Nodup ↔ (t.actions.map (·.name)).Nodup := by
  obtain ⟨hnodup, hnot⟩ := nodup_apart_from_actions hg
  have hactions : (t.actions.map fun a => actionUnitName a.name)
      = (t.actions.map (·.name)).map actionUnitName := by
    rw [List.map_map]
    rfl
  rw [(names_of_actions_and_others hg hset).nodup_iff, List.nodup_append', hactions,
    List.nodup_map_iff actionUnitName_injective]
  constructor
  · rintro ⟨hnames, -⟩
    exact hnames
  · intro hnames
    refine ⟨hnames, hnodup, fun name hname hother => ?_⟩
    obtain ⟨action, -, rfl⟩ := List.mem_map.1 hname
    exact hnot action hother

/-! ### Places -/

/-- The places of the artifacts: those of the units of the actions, and all others. -/
theorem places_of_actions_and_others (hg : ofTask t o = .ok g)
    (hset : g.artifactsAfresh overrides = .ok set) :
    (set.artifacts.map fun a => Path.steps a.name).Perm
      ((t.actions.map fun a => Path.steps (actionUnitName a.name)) ++
        ((g.plan.deferred.map NumberedUse.unitName).map Path.steps ++
          (fixedNames.map Path.steps ++ g.model.staticAssignments.map fun entry =>
            Path.steps (GroundModel.staticUnitName entry.1)))) := by
  have hnames := (names_of_actions_and_others hg hset).map Path.steps
  simpa [ArtifactSet.names, otherNames, Function.comp_def] using hnames

/-- The files of constraints are at different places in their folder. -/
theorem places_of_constraints (hg : ofTask t o = .ok g) :
    ((g.plan.deferred.map NumberedUse.unitName).map Path.steps).Nodup ∧
      ∀ place ∈ (g.plan.deferred.map NumberedUse.unitName).map Path.steps,
        place.head? = some "constraints" := by
  obtain ⟨htask, hplan⟩ := task_and_plan_of_ofTask hg
  have hfile : ∀ name ∈ g.plan.deferred.map NumberedUse.unitName,
      ∃ file, name = "constraints/" ++ file ∧ Path.steps name = ["constraints", file] := by
    intro name hname
    obtain ⟨c, hc, rfl⟩ := List.mem_map.1 hname
    exact (NumberedUse.exists_steps_unitName hplan (List.mem_of_mem_filter hc)).2
  constructor
  · refine (nodup_deferredNames (htask ▸ hplan)).map_on fun name hname name' hname' hsteps => ?_
    -- The place tells the name of the file, and the folder is the same.
    obtain ⟨file, rfl, hplace⟩ := hfile name hname
    obtain ⟨file', rfl, hplace'⟩ := hfile name' hname'
    rw [hplace, hplace'] at hsteps
    rw [(List.cons.inj (List.cons.inj hsteps).2).1]
  · intro place hplace
    obtain ⟨name, hname, rfl⟩ := List.mem_map.1 hplace
    obtain ⟨file, -, hplace⟩ := hfile name hname
    rw [hplace]
    rfl

/-- The files that every compilation makes are at different places, and in no folder. -/
theorem places_of_fixedNames :
    (fixedNames.map Path.steps).Nodup ∧
      ∀ place ∈ fixedNames.map Path.steps, place.head? ≠ some "actions" ∧
        place.head? ≠ some "constraints" ∧ place.head? ≠ some "static" :=
  ⟨by decide, by decide⟩

/-- All artifacts are at different places exactly when those of actions are, and those of static
symbols: other places are different anyway. -/
theorem nodup_places_iff (hg : ofTask t o = .ok g) (hset : g.artifactsAfresh overrides = .ok set) :
    (set.artifacts.map fun a => Path.steps a.name).Nodup ↔
      (t.actions.map fun a => Path.steps (actionUnitName a.name)).Nodup ∧
      (g.model.staticAssignments.map fun entry =>
        Path.steps (GroundModel.staticUnitName entry.1)).Nodup := by
  obtain ⟨hconstraints, hconstraintsHead⟩ := places_of_constraints hg
  have hactionsHead : ∀ place ∈ t.actions.map fun a => Path.steps (actionUnitName a.name),
      place.head? = some "actions" := by
    intro place hplace
    obtain ⟨a, -, rfl⟩ := List.mem_map.1 hplace
    exact (Path.isFileOf_actionUnitName a.name).head?_steps
  have hstaticsHead : ∀ place ∈ g.model.staticAssignments.map fun entry =>
      Path.steps (GroundModel.staticUnitName entry.1), place.head? = some "static" := by
    intro place hplace
    obtain ⟨entry, -, rfl⟩ := List.mem_map.1 hplace
    exact (Path.isFileOf_staticUnitName entry.1).head?_steps
  obtain ⟨hfixed, hfixedHead⟩ := places_of_fixedNames
  -- The first step of a place tells which of the four kinds of files is there.
  have hapart : ∀ place ∈ fixedNames.map Path.steps ++ g.model.staticAssignments.map fun entry =>
      Path.steps (GroundModel.staticUnitName entry.1),
      place.head? ≠ some "actions" ∧ place.head? ≠ some "constraints" := by
    intro place hplace
    rcases List.mem_append.1 hplace with hplace | hplace
    · exact ⟨(hfixedHead place hplace).1, (hfixedHead place hplace).2.1⟩
    · rw [hstaticsHead place hplace]
      decide
  rw [(places_of_actions_and_others hg hset).nodup_iff, List.nodup_append', List.nodup_append',
    List.nodup_append']
  constructor
  · rintro ⟨hactions, ⟨-, ⟨-, hstatics, -⟩, -⟩, -⟩
    exact ⟨hactions, hstatics⟩
  · rintro ⟨hactions, hstatics⟩
    refine ⟨hactions, ⟨hconstraints, ⟨hfixed, hstatics, ?_⟩, ?_⟩, ?_⟩
    · exact fun place hplace h => (hfixedHead place hplace).2.2 (hstaticsHead place h)
    · exact disjoint_of_feature hconstraintsHead fun place h => (hapart place h).2
    · refine disjoint_of_feature hactionsHead fun place hplace => ?_
      rcases List.mem_append.1 hplace with hplace | hplace
      · rw [hconstraintsHead place hplace]
        decide
      · exact (hapart place hplace).1

end CodeSource

/-! ### Sets of artifacts -/

namespace ArtifactSet

variable {set : ArtifactSet}

/-- An artifact that is the only one of its name is found under it. -/
theorem get?_of_filesNamed {a : Artifact} (h : set.filesNamed a.name = [a]) :
    set.get? a.name = some a := by
  rw [filesNamed] at h
  rw [get?, ← List.head?_filter, List.filter_reverse, h]
  rfl

/-- Which artifacts of a task with these actions share a name. -/
structure NamedApart (set : ArtifactSet) (actions : List Action) : Prop where
  /-- There are as many artifacts of the name of an action as there are actions of this name. -/
  shared : ∀ action, (set.filesNamed (CodeSource.actionUnitName action)).length
    = actions.countP (·.name = action)
  /-- Any other artifact is the only one of its name, and found under it. -/
  alone : ∀ a ∈ set.artifacts, (∀ action, a.name = CodeSource.actionUnitName action →
    actions.countP (·.name = action) ≤ 1) →
      set.filesNamed a.name = [a] ∧ set.get? a.name = some a
  /-- No two artifacts share a name exactly when no two actions do. -/
  nodup : set.names.Nodup ↔ (actions.map (·.name)).Nodup

/-- Every file that a manifest lists is there, with the digest and the size that are listed. -/
theorem Written.entries {dir time : String} {base : Location} {tree tree' : FileTree}
    (h : set.Written dir time base tree tree') :
    ∀ e ∈ (set.manifest time).entries, ∃ text,
      tree'.fileAt? (base ++ Path.steps e.name) = some (.text text) ∧
        e.digest = Text.Sha256.hexDigest text ∧ e.bytes = .ofNat text.utf8ByteSize := by
  intro e he
  obtain ⟨a, ha, rfl⟩ := List.mem_map.1 he
  exact ⟨a.content, (h.holds a ha).content, rfl, rfl⟩

end ArtifactSet

namespace CodeSource

variable {t : Task} {o : CompileOptions} {overrides : Overrides} {g : CodeSource}
  {set : ArtifactSet}

/-- Only units of actions share names, and only those of actions that do. -/
theorem namedApart_of_artifactsAfresh (hg : ofTask t o = .ok g)
    (hset : g.artifactsAfresh overrides = .ok set) : set.NamedApart t.actions := by
  have hlength : ∀ name, (set.filesNamed name).length = set.names.count name := by
    intro name
    rw [ArtifactSet.filesNamed, ArtifactSet.names, List.count, List.countP_map,
      ← List.countP_eq_length_filter]
    exact List.countP_congr fun a _ => by simp
  refine ⟨fun action => ?_, fun a ha hshared => ?_, nodup_names_iff hg hset⟩
  · rw [hlength, count_actionUnitName hg hset]
  · have hle : set.names.count a.name ≤ 1 := by
      by_cases hunit : ∃ action, a.name = actionUnitName action
      · obtain ⟨action, haction⟩ := hunit
        rw [haction, count_actionUnitName hg hset]
        exact hshared action haction
      · exact count_le_one hg hset fun b _ hb => hunit ⟨b.name, hb.symm⟩
    have hpos : 0 < set.names.count a.name := List.count_pos_iff.2 (List.mem_map_of_mem ha)
    have halone := ArtifactSet.filesNamed_eq_singleton ha (by omega)
    exact ⟨halone, ArtifactSet.get?_of_filesNamed halone⟩

/-- Every artifact gets a file of its own exactly when no action and no static symbol climbs, and the
names of actions lead to different places, as do the static symbols. -/
theorem namesFiles_iff (hg : ofTask t o = .ok g) (hset : g.artifactsAfresh overrides = .ok set) :
    set.NamesFiles ↔
      ((∀ a ∈ t.actions, ¬ Path.Climbs a.name) ∧
        ∀ symbol ∈ g.model.classification.statics, ¬ Path.Climbs symbol) ∧
      (t.actions.map fun a => Path.steps (actionUnitName a.name)).Nodup ∧
      (g.model.staticAssignments.map fun entry =>
        Path.steps (GroundModel.staticUnitName entry.1)).Nodup := by
  rw [← all_isPlain_iff hg hset, ← nodup_places_iff hg hset]
  constructor
  · intro h
    exact ⟨h.plain, h.nodup⟩
  · rintro ⟨hplain, hnodup⟩
    exact ⟨⟨hplain, fun a ha => (steps_of_mem_names hg hset (List.mem_map_of_mem ha)).2⟩, hnodup⟩

end CodeSource

/-- The artifacts of a compiled task have different names exactly when its actions do, and an
artifact that shares its name with none is the one that is found under it. Every artifact gets a file
of its own if moreover no name climbs and the names lead to different places. Then a run that
succeeds leaves every artifact in its file, and the digests in the manifest are those of the
files. -/
theorem artifact_names_unique_iff {t : Task} {o : CompileOptions} {overrides : Overrides}
    (requests : List String) {out : Compilation}
    (hout : (compile t o overrides (afterRequests overrides requests)).1 = .ok out) :
    out.artifacts.NamedApart t.actions ∧
    (out.artifacts.NamesFiles ↔
      ((∀ a ∈ t.actions, ¬ Path.Climbs a.name) ∧
        ∀ symbol ∈ out.model.classification.statics, ¬ Path.Climbs symbol) ∧
      (t.actions.map fun a => Path.steps (CodeSource.actionUnitName a.name)).Nodup ∧
      (out.model.staticAssignments.map fun entry =>
        Path.steps (GroundModel.staticUnitName entry.1)).Nodup) ∧
    (out.artifacts.NamesFiles → ∀ dir time tree manifest tree',
      out.artifacts.writeAt dir time tree = (.ok manifest, tree') →
        ∃ base, tree'.LeadsTo dir base ∧
          (∀ a ∈ out.artifacts.artifacts,
            tree'.fileAt? (base ++ Path.steps a.name) = some (.text a.content)) ∧
          ∀ e ∈ manifest.entries, ∃ text,
            tree'.fileAt? (base ++ Path.steps e.name) = some (.text text) ∧
              e.digest = Text.Sha256.hexDigest text ∧ e.bytes = .ofNat text.utf8ByteSize) := by
  obtain ⟨g, hg, hmodel, -, hset⟩ :=
    exists_source_of_compile (faithful_afterRequests overrides requests) hout
  rw [hmodel]
  refine ⟨CodeSource.namedApart_of_artifactsAfresh hg hset, CodeSource.namesFiles_iff hg hset, ?_⟩
  intro hnames dir time tree manifest tree' hrun
  obtain ⟨rfl, base, hwritten⟩ := ArtifactSet.exists_written hnames hrun
  exact ⟨base, hwritten.leads, fun a ha => (hwritten.holds a ha).content, hwritten.entries⟩

/-- The lamps with `shift` compile to artifacts with different names. -/
theorem artifact_names_unique_iff_shift :
    ∃ out, (compile (lampTask shiftAction) ⟨.declaration, false⟩ Overrides.none
        (afterRequests Overrides.none [])).1 = .ok out ∧ out.artifacts.names.Nodup ∧
      ∃ unit, out.artifacts.filesNamed "actions/shift.hxx" = [unit] := by
  have hcompiles : compiles (lampTask shiftAction) ⟨.declaration, false⟩ = true := by
    decide +kernel
  obtain ⟨out, hout⟩ := exists_compilation hcompiles []
  obtain ⟨hapart, -, -⟩ := artifact_names_unique_iff [] hout
  refine ⟨out, hout, hapart.nodup.2 (by decide), List.length_eq_one_iff.1 ?_⟩
  exact hapart.shared "shift"

/-- The lamps, with two actions of one name that do different things. -/
def twinTask : Task :=
  { lampTask shiftAction with actions := [shiftAction, { swapAction with name := "shift" }] }

/-- The task compiles, and two of its artifacts have the same name. -/
theorem twin_actions :
    ∃ out, (compile twinTask ⟨.declaration, false⟩ Overrides.none
        (afterRequests Overrides.none [])).1 = .ok out ∧
      ¬ out.artifacts.names.Nodup ∧
      (out.artifacts.filesNamed "actions/shift.hxx").length = 2 := by
  have hcompiles : compiles twinTask ⟨.declaration, false⟩ = true := by decide +kernel
  obtain ⟨out, hout⟩ := exists_compilation hcompiles []
  obtain ⟨g, hg, -, -, hset⟩ :=
    exists_source_of_compile (faithful_afterRequests Overrides.none []) hout
  have hapart := CodeSource.namedApart_of_artifactsAfresh hg hset
  refine ⟨out, hout, ?_, hapart.shared "shift"⟩
  rw [hapart.nodup]
  decide

end Grounder
