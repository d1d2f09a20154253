import Grounder.Proofs.Compile.Linking
import Grounder.Proofs.Support.Lists

/-!
# `Grounder.Proofs.Compile.Files`: every file is made once

A set of artifacts can hold several files of one name, and units of actions that have the same name
do collide. No other files do: the numbers of constraints are different, and so are the names of
static symbols. So `filesNamed` finds a single file under the name of each listing
(`filesNamed_other`), and one under that of each deferred constraint (`filesNamed_unitName`).
-/

set_option autoImplicit false

namespace Grounder

open Rendering Proofs.Support

/-! ### Files of a name -/

namespace ArtifactSet

/-- All artifacts of that name. -/
def filesNamed (set : ArtifactSet) (name : String) : List Artifact :=
  set.artifacts.filter (·.name = name)

variable {set : ArtifactSet}

/-- An artifact is the only one of its name if the name occurs once. -/
theorem filesNamed_eq_singleton {a : Artifact} (ha : a ∈ set.artifacts)
    (hcount : set.names.count a.name = 1) : set.filesNamed a.name = [a] :=
  filter_eq_singleton ha hcount

/-- There is no artifact of a name that does not occur. -/
theorem filesNamed_eq_nil {name : String} (h : name ∉ set.names) : set.filesNamed name = [] := by
  rw [filesNamed, List.filter_eq_nil_iff]
  intro a ha hname
  exact h (List.mem_map.2 ⟨a, ha, of_decide_eq_true hname⟩)

end ArtifactSet

/-! ### Names of units -/

/-- The number of a constraint is read back from the name of its unit. -/
theorem NumberedUse.id_of_unitName {c c' : NumberedUse} (h : c.unitName = c'.unitName) :
    c.id = c'.id := by
  have hread (c : NumberedUse) :
      (Code.after? "constraints/".toList c.unitName.toList).bind Code.nat?
      = some (c.id, "_".toList ++ (c.constraint.name.toList ++ ".hxx".toList)) := by
    have hstops : ∀ cs, Code.Stops ("_".toList ++ cs) := Code.stops_append rfl (by decide)
    simp only [NumberedUse.unitName_eq, String.toList_append, Code.after?_append,
      Option.bind_some, Code.nat?_toString c.id (hstops _)]
  have hsame := (hread c).symm.trans ((congrArg (fun name : String =>
    (Code.after? "constraints/".toList name.toList).bind Code.nat?) h).trans (hread c'))
  exact (Prod.mk.inj (Option.some.inj hsame)).1

namespace CodeSource

variable {g : CodeSource} {overrides : Overrides} {set : ArtifactSet}

/-- The names of the units of the deferred constraints are different. -/
theorem nodup_deferredNames {c : Classification} {resolve : Bool}
    (hplan : ConstraintPlan.ofTask g.task c resolve = .ok g.plan) :
    (g.plan.deferred.map NumberedUse.unitName).Nodup := by
  have hids := ConstraintPlan.deferred_ids_ascend hplan
  rw [List.pairwise_map] at hids
  rw [List.Nodup, List.pairwise_map]
  exact hids.imp fun hlt hname => Nat.ne_of_lt hlt (NumberedUse.id_of_unitName hname)

/-- The unit of an action is not named after a constraint. -/
theorem actionUnitName_ne_unitName (action : String) (c : NumberedUse) :
    actionUnitName action ≠ c.unitName := by
  intro h
  -- The names differ in their first character.
  have hhead := congrArg (fun name : String => name.toList.head?) h
  simp [actionUnitName, NumberedUse.unitName_eq] at hhead

/-- The unit of a constraint is not among the other files. -/
theorem unitName_not_mem_otherNames (c : NumberedUse) : c.unitName ∉ g.otherNames := fun h =>
  not_isUnitName_of_mem_otherNames h (isUnitName_unitName c)

/-- The name of the unit of a constraint occurs once if the constraint is deferred, and not at all
otherwise. -/
theorem count_unitName {c : Classification} {resolve : Bool}
    (hplan : ConstraintPlan.ofTask g.task c resolve = .ok g.plan)
    (hset : g.artifactsAfresh overrides = .ok set) {u : NumberedUse} (hu : u ∈ g.plan.uses) :
    set.names.count u.unitName = if u.isStatic then 0 else 1 := by
  have hactions : (g.task.actions.map fun a => actionUnitName a.name).count u.unitName = 0 := by
    rw [List.count_eq_zero]
    intro hmem
    obtain ⟨a, -, ha⟩ := List.mem_map.1 hmem
    exact actionUnitName_ne_unitName a.name u ha
  have hothers : g.otherNames.count u.unitName = 0 :=
    List.count_eq_zero.2 (unitName_not_mem_otherNames u)
  rw [(names_of_artifactsAfresh hset).count_eq, includedUnits, List.count_append,
    List.count_append, hactions, hothers, Nat.zero_add, Nat.add_zero]
  cases hstatic : u.isStatic with
  | false =>
    have hmem : u ∈ g.plan.deferred := List.mem_filter.2 ⟨hu, by rw [hstatic]; rfl⟩
    exact List.count_eq_one_of_mem (nodup_deferredNames hplan) (List.mem_map_of_mem hmem)
  | true =>
    refine List.count_eq_zero.2 fun hmem => ?_
    -- A deferred constraint of this name would be the constraint itself.
    obtain ⟨u', hu', hname⟩ := List.mem_map.1 hmem
    obtain ⟨hu', hdeferred⟩ := List.mem_filter.1 hu'
    obtain ⟨id, hget⟩ := List.getElem?_of_mem hu
    obtain ⟨id', hget'⟩ := List.getElem?_of_mem hu'
    have hid := NumberedUse.id_of_unitName hname
    rw [ConstraintPlan.id_of_getElem? hplan hget, ConstraintPlan.id_of_getElem? hplan hget'] at hid
    rw [hid, hget] at hget'
    cases hget'
    rw [hstatic] at hdeferred
    cases hdeferred

/-- The only file of a deferred constraint is its unit, and a constraint that is decided before the
search has none. -/
theorem filesNamed_unitName {c : Classification} {resolve : Bool}
    (hplan : ConstraintPlan.ofTask g.task c resolve = .ok g.plan)
    (hset : g.artifactsAfresh Overrides.none = .ok set) {u : NumberedUse} (hu : u ∈ g.plan.uses) :
    set.filesNamed u.unitName
      = if u.isStatic then [] else [⟨u.unitName, g.constraintUnitContent u⟩] := by
  have hcount := count_unitName hplan hset hu
  cases hstatic : u.isStatic with
  | true =>
    rw [hstatic] at hcount
    exact ArtifactSet.filesNamed_eq_nil (List.count_eq_zero.1 hcount)
  | false =>
    rw [hstatic] at hcount
    have hmem : u ∈ g.plan.deferred := List.mem_filter.2 ⟨hu, by rw [hstatic]; rfl⟩
    exact ArtifactSet.filesNamed_eq_singleton (constraintUnit_mem hset hmem) hcount

/-! ### Names of everything else -/

/-- The static symbols that have a file are those with an extension. -/
theorem map_fst_staticAssignments (m : GroundModel) :
    m.staticAssignments.map Prod.fst
      = m.classification.statics.filter fun symbol => (m.init.get? symbol).isSome := by
  rw [GroundModel.staticAssignments]
  induction m.classification.statics with
  | nil => rfl
  | cons symbol rest ih =>
    rw [List.filterMap_cons, List.filter_cons]
    cases m.init.get? symbol with
    | none => exact ih
    | some a => exact congrArg (symbol :: ·) ih

/-- The file of a static symbol tells the symbol. -/
theorem staticUnitName_injective : Function.Injective GroundModel.staticUnitName := by
  intro symbol symbol' h
  have hlist := congrArg String.toList h
  simp only [GroundModel.staticUnitName, String.toList_append, List.append_assoc,
    List.append_cancel_left_eq, List.append_cancel_right_eq] at hlist
  exact String.toList_inj.1 hlist

/-- The files that are not included have different names. -/
theorem nodup_otherNames {t : Task} {order : SymbolOrder}
    (hmodel : GroundModel.build t order = .ok g.model) : g.otherNames.Nodup := by
  obtain ⟨-, table, classification, numbering, init, htable, hclassification, -, -, heq⟩ :=
    GroundModel.build_eq_ok.1 hmodel
  have hstatics : (g.model.staticAssignments.map Prod.fst).Nodup := by
    rw [map_fst_staticAssignments, heq]
    exact (Classification.nodup_statics hclassification
      (SymbolTable.declares_of_ofTask htable).1.nodup).filter _
  rw [otherNames, List.nodup_append']
  refine ⟨by decide, ?_, ?_⟩
  · have hnames := hstatics.map staticUnitName_injective
    rw [List.map_map] at hnames
    exact hnames
  · intro name hfixed hstatic
    obtain ⟨entry, -, rfl⟩ := List.mem_map.1 hstatic
    exact not_mem_fixedNames entry.1 hfixed

/-- The unit of all components and each listing are the only files of their names. -/
theorem filesNamed_other {t : Task} {order : SymbolOrder}
    (hmodel : GroundModel.build t order = .ok g.model)
    (hset : g.artifactsAfresh overrides = .ok set) {components a : Artifact}
    {listings : List Artifact} (hcomponents : g.componentsUnit.result overrides = .ok components)
    (hlistings : g.listings = .ok listings) (ha : a ∈ components :: listings) :
    set.filesNamed a.name = [a] := by
  have hname : a.name ∈ g.otherNames := by
    rw [← names_of_others hcomponents hlistings]
    exact List.mem_map_of_mem ha
  have hunits : g.includedUnits.count a.name = 0 := List.count_eq_zero.2 fun hunit =>
    not_isUnitName_of_mem_otherNames hname (isUnitName_of_mem_includedUnits hunit)
  refine ArtifactSet.filesNamed_eq_singleton ?_ ?_
  · obtain ⟨units, _, _, -, hcomponents', hlistings', rfl⟩ := artifactsAfresh_eq_ok.1 hset
    rw [hcomponents] at hcomponents'
    rw [hlistings] at hlistings'
    cases hcomponents'
    cases hlistings'
    exact ArtifactSet.mem_ofList.2 (List.mem_append_right _ ha)
  · rw [(names_of_artifactsAfresh hset).count_eq, List.count_append, hunits, Nat.zero_add]
    exact List.count_eq_one_of_mem (nodup_otherNames hmodel) hname

end CodeSource

end Grounder
