import Grounder.Proofs.Compile.Afresh
import Grounder.Proofs.Output.Search
import Mathlib.Data.List.Nodup

/-!
# `Grounder.Proofs.Compile.FileNames`: which files a compilation makes

The units of the actions and of the deferred constraints are the files that the unit of all
components includes (`names_of_independentUnits`), whatever the templates are. What else there is
has a name of another kind (`not_isUnitName_of_mem_otherNames`), so the names alone tell the units
from the rest (`mem_includedUnits_iff`).
-/

set_option autoImplicit false

namespace Grounder

open Rendering Proofs.Support

/-! ### Names of units -/

/-- A name below `actions/` or below `constraints/`. -/
def IsUnitName (name : String) : Prop :=
  ∃ file, name = "actions/" ++ file ∨ name = "constraints/" ++ file

/-- The name of a constraint's unit, with what comes first in front. -/
theorem NumberedUse.unitName_eq (c : NumberedUse) :
    c.unitName = "constraints/" ++ (toString c.id ++ ("_" ++ (c.constraint.name ++ ".hxx"))) := by
  show "constraints/" ++ toString c.id ++ "_" ++ c.constraint.name ++ ".hxx" = _
  simp only [String.append_assoc]

/-- The unit of a constraint has the name of a unit. -/
theorem isUnitName_unitName (c : NumberedUse) : IsUnitName c.unitName :=
  ⟨_, .inr c.unitName_eq⟩

/-- How the name of a unit begins. -/
theorem IsUnitName.take_three {name : String} (h : IsUnitName name) :
    name.toList.take 3 = ['a', 'c', 't'] ∨ name.toList.take 3 = ['c', 'o', 'n'] := by
  obtain ⟨file, rfl | rfl⟩ := h
  · left
    rw [String.toList_append]
    rfl
  · right
    rw [String.toList_append]
    rfl

namespace CodeSource

variable {g : CodeSource} {overrides : Overrides} {unit : Artifact}

/-- The unit of an action is a file named after the action. -/
theorem name_of_unitOfAction {a : Action} {ids : List Nat}
    (h : (g.unitOfAction a ids).result overrides = .ok unit) :
    unit.name = actionUnitName a.name := by
  simp only [unitOfAction, result_bind_eq_ok, result_pure] at h
  obtain ⟨preconditions, -, effects, -, content, -, h⟩ := h
  cases h
  rfl

/-- The unit of a constraint is a file named after its number and the constraint. -/
theorem name_of_constraintUnit {c : NumberedUse}
    (h : (g.constraintUnit c).result overrides = .ok unit) : unit.name = c.unitName := by
  simp only [constraintUnit, result_bind_eq_ok, result_pure] at h
  obtain ⟨content, -, h⟩ := h
  cases h
  rfl

/-- The unit of all components has a fixed name. -/
theorem name_of_componentsUnit (h : g.componentsUnit.result overrides = .ok unit) :
    unit.name = "components.hxx" := by
  simp only [componentsUnit, result_bind_eq_ok, result_pure] at h
  obtain ⟨content, -, h⟩ := h
  cases h
  rfl

/-- The units of the actions are named after the actions, in order. -/
theorem names_of_actionUnits {units : List Artifact}
    (h : ((List.range g.task.actions.length).map g.actionUnit).mapM (result overrides)
      = .ok units) :
    units.map (·.name) = g.task.actions.map fun a => actionUnitName a.name := by
  have hunits := mapM_eq_ok.1 h
  rw [List.forall₂_map_left_iff] at hunits
  have hlength := hunits.length_eq
  rw [List.length_range] at hlength
  refine List.ext_getElem (by rw [List.length_map, List.length_map, hlength]) ?_
  -- The unit at each position is that of the action at this position.
  intro position hposition hposition'
  rw [List.length_map] at hposition hposition'
  have hunit := (List.forall₂_iff_get.1 hunits).2 position (by simpa using hposition') hposition
  simp only [List.get_eq_getElem, List.getElem_range, actionUnit,
    List.getElem?_eq_getElem hposition'] at hunit
  rw [List.getElem_map, List.getElem_map]
  exact name_of_unitOfAction hunit

/-- The units that do not depend on one another are the files that the unit of all components
includes, in the same order. -/
theorem names_of_independentUnits {units : List Artifact}
    (h : g.independentUnits.mapM (result overrides) = .ok units) :
    units.map (·.name) = g.includedUnits := by
  rw [independentUnits, List.mapM_append] at h
  obtain ⟨actions, hactions, h⟩ := bind_eq_ok.1 h
  obtain ⟨constraints, hconstraints, h⟩ := bind_eq_ok.1 h
  cases h
  rw [List.map_append, names_of_actionUnits hactions, includedUnits]
  congr 1
  rw [mapM_eq_ok, List.forall₂_map_left_iff] at hconstraints
  have hnames := hconstraints.imp fun c unit hunit => (name_of_constraintUnit hunit).symm
  exact (map_eq_map hnames).symm

/-- The unit of all components includes nothing but units. -/
theorem isUnitName_of_mem_includedUnits {name : String} (h : name ∈ g.includedUnits) :
    IsUnitName name := by
  rcases List.mem_append.1 h with h | h
  · obtain ⟨a, -, rfl⟩ := List.mem_map.1 h
    exact ⟨a.name ++ ".hxx", Or.inl (by rw [actionUnitName, String.append_assoc])⟩
  · obtain ⟨c, -, rfl⟩ := List.mem_map.1 h
    exact isUnitName_unitName c

/-! ### Names of everything else -/

/-- The names of the files that every compilation makes. -/
def fixedNames : List String :=
  ["components.hxx", "symbols.data", "variables.data", "objects.data", "init.data",
    "static_constraints.data"]

/-- The names of the files that are not included. -/
def otherNames (g : CodeSource) : List String :=
  fixedNames ++ g.model.staticAssignments.map fun (symbol, _) => GroundModel.staticUnitName symbol

/-- The files of static symbols are named after the symbols. -/
theorem names_of_staticDataUnits {m : GroundModel} {units : List Artifact}
    (h : m.staticDataUnits = .ok units) :
    units.map (·.name)
      = m.staticAssignments.map fun (symbol, _) => GroundModel.staticUnitName symbol := by
  rw [GroundModel.staticDataUnits, mapM_eq_ok] at h
  refine (map_eq_map (h.imp fun entry unit hunit => ?_)).symm
  obtain ⟨lines, -, hunit⟩ := bind_eq_ok.1 hunit
  cases hunit
  rfl

/-- The listing of the values of the initial state has a fixed name. -/
theorem name_of_initData {m : GroundModel} (h : m.initData = .ok unit) :
    unit.name = "init.data" := by
  obtain ⟨lines, -, h⟩ := bind_eq_ok.1 h
  cases h
  rfl

/-- The unit of all components and the listings are what else there is. -/
theorem names_of_others {components : Artifact} {listings : List Artifact}
    (hcomponents : g.componentsUnit.result overrides = .ok components)
    (hlistings : g.listings = .ok listings) :
    (components :: listings).map (·.name) = g.otherNames := by
  obtain ⟨initData, hinit, hlistings⟩ := bind_eq_ok.1 hlistings
  obtain ⟨staticData, hstatic, hlistings⟩ := bind_eq_ok.1 hlistings
  cases hlistings
  rw [List.map_cons, List.map_append, names_of_staticDataUnits hstatic,
    name_of_componentsUnit hcomponents]
  simp only [List.map_cons, name_of_initData hinit]
  rfl

/-- How the name of the file of a static symbol begins. -/
theorem take_seven_staticUnitName (symbol : String) :
    (GroundModel.staticUnitName symbol).toList.take 7 = ['s', 't', 'a', 't', 'i', 'c', '/'] := by
  rw [GroundModel.staticUnitName, String.append_assoc, String.toList_append]
  rfl

/-- No file that every compilation makes is that of a static symbol. -/
theorem not_mem_fixedNames (symbol : String) : GroundModel.staticUnitName symbol ∉ fixedNames := by
  intro h
  -- The names differ within the first seven characters.
  have hstem := take_seven_staticUnitName symbol
  simp only [fixedNames, List.mem_cons, List.not_mem_nil, or_false] at h
  rcases h with h | h | h | h | h | h <;> rw [h] at hstem <;> revert hstem <;> decide

/-- Nothing else has a name of a unit. -/
theorem not_isUnitName_of_mem_otherNames {name : String} (h : name ∈ g.otherNames) :
    ¬ IsUnitName name := by
  intro hunit
  -- The names differ within the first three characters.
  have hstem := hunit.take_three
  rcases List.mem_append.1 h with h | h
  · simp only [fixedNames, List.mem_cons, List.not_mem_nil, or_false] at h
    rcases h with rfl | rfl | rfl | rfl | rfl | rfl <;> revert hstem <;> decide
  · obtain ⟨entry, -, rfl⟩ := List.mem_map.1 h
    have hstatic : (GroundModel.staticUnitName entry.1).toList.take 3 = ['s', 't', 'a'] := by
      have h := congrArg (List.take 3) (take_seven_staticUnitName entry.1)
      rwa [List.take_take] at h
    rw [hstatic] at hstem
    revert hstem
    decide

/-- A file that every compilation makes is found under its name. -/
theorem get?_of_mem_fixedNames {set : ArtifactSet} (h : g.artifactsAfresh overrides = .ok set)
    {components a : Artifact} {listings : List Artifact}
    (hcomponents : g.componentsUnit.result overrides = .ok components)
    (hlistings : g.listings = .ok listings) (ha : a ∈ components :: listings)
    (hname : a.name ∈ fixedNames) : set.get? a.name = some a := by
  obtain ⟨units, _, _, hunits, hcomponents', hlistings', rfl⟩ := artifactsAfresh_eq_ok.1 h
  rw [hcomponents] at hcomponents'
  rw [hlistings] at hlistings'
  cases hcomponents'
  cases hlistings'
  refine ArtifactSet.get?_ofList (List.mem_append_right units ha) fun b hb hsame => ?_
  -- Everything else falls into the files that every compilation makes and those of static symbols.
  obtain ⟨fixed, statics, hothers, hfixed, hstatics⟩ :=
    List.map_eq_append_iff.1 (names_of_others hcomponents hlistings)
  have hmem : ∀ c ∈ components :: listings, c.name ∈ fixedNames → c ∈ fixed := by
    intro c hc hcname
    rw [hothers, List.mem_append] at hc
    rcases hc with hc | hc
    · exact hc
    · have hcstatic := List.mem_map_of_mem (f := Artifact.name) hc
      rw [hstatics] at hcstatic
      obtain ⟨entry, -, hentry⟩ := List.mem_map.1 hcstatic
      rw [← hentry] at hcname
      exact absurd hcname (not_mem_fixedNames entry.1)
  rcases List.mem_append.1 hb with hb | hb
  · -- A unit has another name.
    have hbname := List.mem_map_of_mem (f := Artifact.name) hb
    rw [names_of_independentUnits hunits, hsame] at hbname
    exact absurd (isUnitName_of_mem_includedUnits hbname)
      (not_isUnitName_of_mem_otherNames (g := g) (List.mem_append_left _ hname))
  · -- The files that every compilation makes have different names.
    have hnodup : (fixed.map (·.name)).Nodup := by
      rw [hfixed]
      decide
    exact List.inj_on_of_nodup_map hnodup (hmem b hb (hsame ▸ hname)) (hmem a ha hname) hsame

/-- The files of a compilation. -/
theorem names_of_artifactsAfresh {set : ArtifactSet} (h : g.artifactsAfresh overrides = .ok set) :
    set.names.Perm (g.includedUnits ++ g.otherNames) := by
  obtain ⟨units, components, listings, hunits, hcomponents, hlistings, rfl⟩ :=
    artifactsAfresh_eq_ok.1 h
  refine (ArtifactSet.names_ofList _).trans ?_
  rw [List.map_append, names_of_independentUnits hunits, names_of_others hcomponents hlistings]

/-- The files with names of units are those that the unit of all components includes. -/
theorem mem_includedUnits_iff {set : ArtifactSet} (h : g.artifactsAfresh overrides = .ok set)
    (name : String) : name ∈ g.includedUnits ↔ name ∈ set.names ∧ IsUnitName name := by
  rw [(names_of_artifactsAfresh h).mem_iff, List.mem_append]
  constructor
  · intro hname
    exact ⟨Or.inl hname, isUnitName_of_mem_includedUnits hname⟩
  · rintro ⟨hname | hname, hunit⟩
    · exact hname
    · exact absurd hunit (not_isUnitName_of_mem_otherNames hname)

end CodeSource

end Grounder
