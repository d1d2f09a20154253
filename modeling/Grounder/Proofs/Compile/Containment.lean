import Grounder.Proofs.Compile.Files
import Grounder.Proofs.Compile.References
import Grounder.Proofs.Files.FileName
import Grounder.Proofs.Output.Containment

/-!
# `Grounder.Proofs.Compile.Containment`: which artifacts stay below the output directory

The names of actions and of static symbols go into the names of files as they are, and nothing looks
for slashes in them. So an artifact can be named after a text that climbs out of its folder
(`Path.Climbs`), and then it is written outside the output directory or beside the folder, and no
later run removes it. All other artifacts have plain names: those of constraints are made of a number
and the name of a kind, and the rest have fixed names.

`artifacts_stay_below` says that these are the only exceptions, and `escaping_action` shows a task
that compiles and has an artifact whose path leads out of the output directory.
-/

set_option autoImplicit false

namespace Grounder

open Rendering TemplateCache Proofs.Support

/-! ### Names of artifacts -/

/-- The file of an action is named after the action, and that of a static symbol after the symbol. -/
def IsNamedAfter (t : Task) (c : Classification) (file text : String) : Prop :=
  text ∈ t.actions.map (·.name) ∧ file = CodeSource.actionUnitName text ∨
    text ∈ c.statics ∧ file = GroundModel.staticUnitName text

namespace Path

/-- The unit of an action is a file in the folder of actions. -/
theorem isFileOf_actionUnitName (name : String) :
    IsFileOf "actions" name (CodeSource.actionUnitName name) :=
  isFileOf_file (show "actions" ∈ folders by decide) (show ".hxx" ∈ extensions by decide) name

/-- The facts of a static symbol are a file in the folder of static symbols. -/
theorem isFileOf_staticUnitName (name : String) :
    IsFileOf "static" name (GroundModel.staticUnitName name) :=
  isFileOf_file (show "static" ∈ folders by decide) (show ".data" ∈ extensions by decide) name

/-- A file that is named after a text is in a folder. -/
theorem exists_isFileOf {t : Task} {c : Classification} {file text : String}
    (h : IsNamedAfter t c file text) : ∃ folder, IsFileOf folder text file := by
  rcases h with ⟨-, rfl⟩ | ⟨-, rfl⟩
  · exact ⟨_, isFileOf_actionUnitName text⟩
  · exact ⟨_, isFileOf_staticUnitName text⟩

/-- The files that every compilation makes are right in the output directory. -/
theorem fixedNames_spec : ∀ name ∈ CodeSource.fixedNames, isPlain name = true ∧
    steps name = [name] ∧ name ≠ ArtifactSet.manifestName := by
  decide

end Path

/-- The file of a constraint is right in its folder. -/
theorem NumberedUse.exists_steps_unitName {t : Task} {c : Classification} {resolve : Bool}
    {plan : ConstraintPlan} (hplan : ConstraintPlan.ofTask t c resolve = .ok plan)
    {u : NumberedUse} (hu : u ∈ plan.uses) :
    Path.isPlain u.unitName = true ∧
      ∃ file, u.unitName = "constraints/" ++ file ∧ Path.steps u.unitName = ["constraints", file] := by
  obtain ⟨origin, use, hcheck⟩ := ConstraintPlan.checked_of_mem_uses hplan hu
  obtain ⟨kind, hkind⟩ := ConstraintPlan.exists_kind_of_checkUse hcheck
  -- Neither a number nor the name of a kind has a slash.
  have hslash : '/' ∉ (toString u.id ++ "_" ++ kind.name).toList := by
    have hname : '/' ∉ ("_" ++ kind.name).toList := by
      cases kind <;> decide
    rw [String.append_assoc, String.toList_append, List.mem_append, not_or]
    exact ⟨not_mem_toString u.id (by decide), hname⟩
  have hfolder : "constraints" ∈ Path.folders := by decide
  have hext : ".hxx" ∈ Path.extensions := by decide
  obtain ⟨hclimbs, hsteps⟩ := Path.steps_file_of_not_mem hfolder hext hslash
  have hfile : u.unitName
      = "constraints" ++ "/" ++ (toString u.id ++ "_" ++ kind.name) ++ ".hxx" := by
    rw [unitName_eq, hkind]
    simp only [String.append_assoc]
    rfl
  rw [hfile]
  refine ⟨(Path.isPlain_file hfolder hext _).2 hclimbs, _, ?_, hsteps⟩
  simp only [← String.append_assoc]
  rfl

namespace CodeSource

variable {t : Task} {o : CompileOptions} {overrides : Overrides} {g : CodeSource}
  {set : ArtifactSet}

/-- What an artifact can be named after. -/
theorem name_cases (hset : g.artifactsAfresh overrides = .ok set) {name : String} :
    name ∈ set.names ↔ (∃ a ∈ g.task.actions, actionUnitName a.name = name) ∨
      (∃ c ∈ g.plan.deferred, c.unitName = name) ∨ name ∈ fixedNames ∨
      ∃ symbol ∈ g.model.staticAssignments.map Prod.fst, GroundModel.staticUnitName symbol = name := by
  rw [(names_of_artifactsAfresh hset).mem_iff, includedUnits, otherNames]
  simp only [List.mem_append, List.mem_map, or_assoc, exists_exists_and_eq_and]

/-- The static symbols that have a file are all but equality. -/
theorem mem_staticAssignments_iff (hg : ofTask t o = .ok g) {symbol : String} :
    symbol ∈ g.model.staticAssignments.map Prod.fst ↔
      symbol ∈ g.model.classification.statics ∧ symbol ≠ equality := by
  have hbuild := build_of_ofTask hg
  have hactions := GroundModel.ofActions_of_build hbuild
  rw [map_fst_staticAssignments, List.mem_filter]
  refine and_congr_right fun hstatic => ?_
  constructor
  · intro hget
    obtain ⟨a, ha⟩ := Option.isSome_iff_exists.1 hget
    exact GroundModel.ne_equality_of_get? hbuild ha
  · intro hne
    rw [Classification.mem_statics_iff hactions] at hstatic
    obtain ⟨s, hs, rfl⟩ := Classification.exists_symbol_of_isStatic hactions hstatic
    obtain ⟨a, ha, -⟩ := GroundModel.exists_extension hbuild hs hne
    rw [ha]
    rfl

/-- An artifact that is not named after an action or a static symbol is at a plain path. -/
theorem isNamedAfter_or_isPlain (hg : ofTask t o = .ok g)
    (hset : g.artifactsAfresh overrides = .ok set) {name : String} (h : name ∈ set.names) :
    (∃ text, IsNamedAfter t g.model.classification name text) ∨ Path.isPlain name = true := by
  obtain ⟨htask, hplan⟩ := task_and_plan_of_ofTask hg
  rcases (name_cases hset).1 h with ⟨a, ha, rfl⟩ | ⟨c, hc, rfl⟩ | hfixed | ⟨symbol, hsymbol, rfl⟩
  · exact Or.inl ⟨a.name, Or.inl ⟨List.mem_map_of_mem (htask ▸ ha), rfl⟩⟩
  · exact Or.inr (NumberedUse.exists_steps_unitName hplan (List.mem_of_mem_filter hc)).1
  · exact Or.inr (Path.fixedNames_spec name hfixed).1
  · exact Or.inl ⟨symbol, Or.inr ⟨((mem_staticAssignments_iff hg).1 hsymbol).1, rfl⟩⟩

/-- No artifact is at an absolute path, and its path is plain unless it is named after a text that
climbs. -/
theorem isPlain_of_mem_names (hg : ofTask t o = .ok g)
    (hset : g.artifactsAfresh overrides = .ok set) {name : String} (h : name ∈ set.names) :
    Path.isAbsolute name = false ∧ (Path.isPlain name = false ↔
      ∃ text, Path.Climbs text ∧ IsNamedAfter t g.model.classification name text) := by
  have hclimbs : (∃ text, Path.Climbs text ∧ IsNamedAfter t g.model.classification name text) →
      Path.isPlain name = false := by
    rintro ⟨text, hclimbs, hnamed⟩
    obtain ⟨folder, hfile⟩ := Path.exists_isFileOf hnamed
    rw [← Bool.not_eq_true, hfile.plain, not_not]
    exact hclimbs
  rcases isNamedAfter_or_isPlain hg hset h with ⟨text, hnamed⟩ | hplain
  · obtain ⟨folder, hfile⟩ := Path.exists_isFileOf hnamed
    refine ⟨hfile.relative, fun hplain => ⟨text, ?_, hnamed⟩, hclimbs⟩
    rwa [← Bool.not_eq_true, hfile.plain, not_not] at hplain
  · refine ⟨(Path.isPlain_spec hplain).1, fun hnot => ?_, hclimbs⟩
    rw [hplain] at hnot
    cases hnot

/-- Every action, and every static symbol that climbs, has a file of its name. -/
theorem mem_names_of_isNamedAfter (hg : ofTask t o = .ok g)
    (hset : g.artifactsAfresh overrides = .ok set) {name text : String}
    (hclimbs : Path.Climbs text) (h : IsNamedAfter t g.model.classification name text) :
    name ∈ set.names := by
  rcases h with ⟨htext, rfl⟩ | ⟨htext, rfl⟩
  · obtain ⟨a, ha, rfl⟩ := List.mem_map.1 htext
    rw [← (task_and_plan_of_ofTask hg).1] at ha
    exact (name_cases hset).2 (Or.inl ⟨a, ha, rfl⟩)
  · -- Equality has no file, but it does not climb.
    have hne : text ≠ equality := by
      rintro rfl
      revert hclimbs
      decide
    exact (name_cases hset).2 (Or.inr (Or.inr (Or.inr
      ⟨text, (mem_staticAssignments_iff hg).2 ⟨htext, hne⟩, rfl⟩)))

/-- All artifacts are at plain paths exactly when no action and no static symbol climbs. -/
theorem all_isPlain_iff (hg : ofTask t o = .ok g) (hset : g.artifactsAfresh overrides = .ok set) :
    (∀ a ∈ set.artifacts, Path.isPlain a.name = true) ↔
      (∀ a ∈ t.actions, ¬ Path.Climbs a.name) ∧
        ∀ symbol ∈ g.model.classification.statics, ¬ Path.Climbs symbol := by
  have hstays : ∀ {name text}, IsNamedAfter t g.model.classification name text →
      (∀ a ∈ set.artifacts, Path.isPlain a.name = true) → ¬ Path.Climbs text := by
    intro name text hnamed hplain hclimbs
    obtain ⟨a, ha, rfl⟩ := List.mem_map.1 (mem_names_of_isNamedAfter hg hset hclimbs hnamed)
    obtain ⟨folder, hfile⟩ := Path.exists_isFileOf hnamed
    exact hfile.plain.1 (hplain a ha) hclimbs
  constructor
  · intro hplain
    constructor
    · intro a ha
      exact hstays (Or.inl ⟨List.mem_map_of_mem ha, rfl⟩) hplain
    · intro symbol hsymbol
      exact hstays (Or.inr ⟨hsymbol, rfl⟩) hplain
  · rintro ⟨hactions, hstatics⟩ a ha
    by_contra hplain
    rw [Bool.not_eq_true, (isPlain_of_mem_names hg hset (List.mem_map_of_mem ha)).2] at hplain
    obtain ⟨text, hclimbs, ⟨htext, -⟩ | ⟨htext, -⟩⟩ := hplain
    · obtain ⟨b, hb, rfl⟩ := List.mem_map.1 htext
      exact hactions b hb hclimbs
    · exact hstatics text htext hclimbs

/-- An artifact leads to a file, and not to the manifest. -/
theorem steps_of_mem_names (hg : ofTask t o = .ok g)
    (hset : g.artifactsAfresh overrides = .ok set) {name : String} (h : name ∈ set.names) :
    Path.steps name ≠ [] ∧ Path.steps name ≠ [ArtifactSet.manifestName] := by
  rcases (name_cases hset).1 h with ⟨a, -, rfl⟩ | ⟨c, hc, rfl⟩ | hfixed | ⟨symbol, -, rfl⟩
  · exact (Path.isFileOf_actionUnitName a.name).steps_ne _
  · obtain ⟨-, file, -, hsteps⟩ := NumberedUse.exists_steps_unitName (task_and_plan_of_ofTask hg).2
      (List.mem_of_mem_filter hc)
    rw [hsteps]
    simp
  · obtain ⟨-, hsteps, hne⟩ := Path.fixedNames_spec name hfixed
    rw [hsteps]
    simpa using hne
  · exact (Path.isFileOf_staticUnitName symbol).steps_ne _

end CodeSource

/-! ### Runs -/

/-- Every artifact of a compiled task has a relative name. It is a plain path unless it is named
after an action or a static symbol that climbs, and then no run ever takes the file for stale. If
none of them climbs, writing the artifacts stays below the output directory, whatever this is and
whatever was there, and the next run takes back what it does not write itself. -/
theorem artifacts_stay_below {t : Task} {o : CompileOptions} {overrides : Overrides}
    (requests : List String) {out : Compilation}
    (hout : (compile t o overrides (afterRequests overrides requests)).1 = .ok out) :
    (∀ a ∈ out.artifacts.artifacts, Path.isAbsolute a.name = false ∧
      (Path.isPlain a.name = false ↔
        ∃ text, Path.Climbs text ∧ IsNamedAfter t out.model.classification a.name text) ∧
      (Path.isPlain a.name = false → ∀ next : ArtifactSet, next.isStale a.name = false)) ∧
    ((∀ a ∈ out.artifacts.artifacts, Path.isPlain a.name = true) ↔
      (∀ a ∈ t.actions, ¬ Path.Climbs a.name) ∧
        ∀ symbol ∈ out.model.classification.statics, ¬ Path.Climbs symbol) ∧
    ((∀ a ∈ out.artifacts.artifacts, Path.isPlain a.name = true) →
      ∀ dir time tree, out.artifacts.StaysBelow dir time tree) := by
  obtain ⟨g, hg, hmodel, -, hset⟩ :=
    exists_source_of_compile (faithful_afterRequests overrides requests) hout
  rw [hmodel]
  refine ⟨fun a ha => ?_, CodeSource.all_isPlain_iff hg hset, fun hplain dir time tree => ?_⟩
  · obtain ⟨hrelative, hiff⟩ := CodeSource.isPlain_of_mem_names hg hset (List.mem_map_of_mem ha)
    exact ⟨hrelative, hiff, ArtifactSet.not_isStale_of_not_isPlain⟩
  · have hsteps := fun a ha => CodeSource.steps_of_mem_names hg hset
      (List.mem_map_of_mem (f := Artifact.name) (a := a) ha)
    exact ArtifactSet.staysBelow_of_hasPlainNames ⟨hplain, fun a ha => (hsteps a ha).2⟩
      fun a ha => (hsteps a ha).1

/-- The artifacts of the lamps with `shift` stay below any directory they are written into. -/
theorem artifacts_stay_below_shift :
    ∃ out, (compile (lampTask shiftAction) ⟨.declaration, false⟩ Overrides.none
        (afterRequests Overrides.none [])).1 = .ok out ∧
      (∀ a ∈ out.artifacts.artifacts, Path.isPlain a.name = true) ∧
      ∀ dir time tree, out.artifacts.StaysBelow dir time tree := by
  have hcompiles : compiles (lampTask shiftAction) ⟨.declaration, false⟩ = true := by
    decide +kernel
  obtain ⟨out, hout⟩ := exists_compilation hcompiles []
  obtain ⟨-, hiff, hbelow⟩ := artifacts_stay_below [] hout
  have hstatics : out.model.classification.statics = ["="] := by
    obtain ⟨g, hg, hmodel, -⟩ :=
      exists_source_of_compile (faithful_afterRequests Overrides.none []) hout
    rw [hmodel]
    exact feature_eq (f := fun g : CodeSource => g.model.classification.statics) hg
      (by decide +kernel)
  have hplain := hiff.2 ⟨by
    intro a ha
    rw [List.mem_singleton.1 ha]
    decide, by
    rw [hstatics]
    decide⟩
  exact ⟨out, hout, hplain, hbelow hplain⟩

/-- The lamps, with an action whose name leads up two directories. -/
def escapeTask : Task := lampTask { shiftAction with name := "../../escape" }

/-- An output directory in which a file for an action was written. -/
def actionsTree : FileTree := ⟨[], [(["out"], .directory), (["out", "actions"], .directory)]⟩

/-- The task compiles, and one of its artifacts is at a path that leads out of the output
directory. -/
theorem escaping_action :
    ∃ out, (compile escapeTask ⟨.declaration, false⟩ Overrides.none
        (afterRequests Overrides.none [])).1 = .ok out ∧
      ∃ a ∈ out.artifacts.artifacts, Path.isPlain a.name = false ∧
        actionsTree.locate? (Path.join "out" a.name) = some ["escape.hxx"] := by
  have hcompiles : compiles escapeTask ⟨.declaration, false⟩ = true := by decide +kernel
  obtain ⟨out, hout⟩ := exists_compilation hcompiles []
  obtain ⟨g, hg, -, -, hset⟩ :=
    exists_source_of_compile (faithful_afterRequests Overrides.none []) hout
  have hclimbs : Path.Climbs "../../escape" := by decide
  obtain ⟨a, ha, hname⟩ := List.mem_map.1 (CodeSource.mem_names_of_isNamedAfter hg hset hclimbs
    (Or.inl ⟨List.mem_singleton.2 rfl, rfl⟩))
  refine ⟨out, hout, a, ha, ?_⟩
  rw [hname]
  exact ⟨by decide, by decide⟩

end Grounder
