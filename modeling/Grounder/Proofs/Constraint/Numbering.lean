import Grounder.Constraint.Plan
import Grounder.Proofs.Support.Except
import Mathlib.Algebra.GroupWithZero.Nat

/-!
# `Grounder.Proofs.Constraint.Numbering`: which number a use of a constraint gets

A plan numbers the uses of constraints of a whole task, while a precondition is rendered on its
own, with nothing but the numbers of its action at hand. `forAction_planned` says that the two
fit: the numbers of an action belong to the uses of its precondition, one by one and in the order
of its conjuncts.

Planning is a loop that counts the uses as it goes. What one step adds, and what a run adds, is said
of the uses and of the actions, and `ofTask_eq` puts the runs together: the numbers are positions
(`numbered`), and each action has consecutive ones (`groups`).

The constraints on states come first, so their numbers are their positions in the task
(`state_planned`, `mem_stateIds_iff`).
-/

set_option autoImplicit false

namespace Grounder

open Grounder.Proofs.Support

/-- A constraint of the catalog has the kind of its name, which its parameters and variables fit. -/
theorem CatalogConstraint.make_eq_ok {name : String} {parameters vars : List String}
    {d : CatalogConstraint} :
    make name parameters vars = .ok d ↔
      ∃ kind, ConstraintKind.ofName? name = some kind ∧ kind.fault? parameters vars = none ∧
        d = ⟨name, kind, parameters, vars⟩ := by
  rw [make]
  cases ConstraintKind.ofName? name with
  | none => simp
  | some kind =>
    cases hfault : kind.fault? parameters vars with
    | none => simp [hfault, eq_comm]
    | some fault => simp [hfault]

namespace ConstraintPlan

/-! ### The loop -/

/-- The uses with their positions as numbers. -/
def numbered (uses : List PlannedUse) : List NumberedUse :=
  uses.zipIdx.map fun (use, id) => { use with id }

/-- Consecutive numbers from `start` on, in groups of the given sizes. -/
def groups (start : Nat) : List Nat → List (List Nat)
  | [] => []
  | size :: rest => List.range' start size :: groups (start + size) rest

/-- What a step of the loop over the uses of an action does with a checked use. -/
def pushCounting (found : ConstraintPlan × List Nat) (use : PlannedUse) :
    ConstraintPlan × List Nat :=
  (found.1.push use, found.2 ++ [found.1.uses.length])

/-- What a step of the loop over the actions does with the checked uses of one. -/
def pushAction (plan : ConstraintPlan) (part : List PlannedUse) : ConstraintPlan :=
  let found := part.foldl pushCounting (plan, [])
  { found.1 with perAction := found.1.perAction ++ [found.2] }

section Loop

variable (uses : List PlannedUse) (perAction : List (List Nat))

/-- A use that comes after numbered ones gets the next number. -/
theorem push_numbered (use : PlannedUse) :
    push ⟨numbered uses, perAction⟩ use = ⟨numbered (uses ++ [use]), perAction⟩ := by
  simp [push, numbered, List.zipIdx_append]

/-- Uses that come after numbered ones get the numbers behind theirs. -/
theorem foldl_push (more : List PlannedUse) :
    more.foldl push ⟨numbered uses, perAction⟩ = ⟨numbered (uses ++ more), perAction⟩ := by
  induction more generalizing uses with
  | nil => rw [List.append_nil, List.foldl_nil]
  | cons use more ih => rw [List.foldl_cons, push_numbered, ih, List.append_assoc]; rfl

/-- The uses of an action get consecutive numbers, which are kept. -/
theorem foldl_pushCounting (ids : List Nat) (part : List PlannedUse) :
    part.foldl pushCounting (⟨numbered uses, perAction⟩, ids)
      = (⟨numbered (uses ++ part), perAction⟩, ids ++ List.range' uses.length part.length) := by
  induction part generalizing uses ids with
  | nil => simp
  | cons use part ih =>
    have hlength : (numbered uses).length = uses.length := by simp [numbered]
    have hstep : pushCounting (⟨numbered uses, perAction⟩, ids) use
        = (⟨numbered (uses ++ [use]), perAction⟩, ids ++ [uses.length]) := by
      rw [pushCounting, push_numbered, hlength]
    rw [List.foldl_cons, hstep, ih]
    simp [List.range'_succ]

/-- The uses of one more action are a group of numbers. -/
theorem pushAction_numbered (part : List PlannedUse) :
    pushAction ⟨numbered uses, perAction⟩ part
      = ⟨numbered (uses ++ part), perAction ++ [List.range' uses.length part.length]⟩ := by
  rw [pushAction, foldl_pushCounting, List.nil_append]

/-- The uses of actions are groups of numbers, one behind the other. -/
theorem foldl_pushAction (parts : List (List PlannedUse)) :
    parts.foldl pushAction ⟨numbered uses, perAction⟩
      = ⟨numbered (uses ++ parts.flatten),
        perAction ++ groups uses.length (parts.map List.length)⟩ := by
  induction parts generalizing uses perAction with
  | nil => simp [groups]
  | cons part parts ih =>
    rw [List.foldl_cons, pushAction_numbered, ih]
    simp [groups]

end Loop

/-- A step of the loop over the actions checks the uses of one. -/
theorem addAction_eq (c : Classification) (resolve : Bool) (plan : ConstraintPlan) (a : Action) :
    addAction c resolve plan a
      = (a.precondition.uses.mapM (checkUse c resolve (.action a.name))).map
        (pushAction plan) := by
  have hloop : a.precondition.uses.foldlM (addUse c resolve a.name) (plan, [])
      = (a.precondition.uses.mapM (checkUse c resolve (.action a.name))).map fun part =>
        part.foldl pushCounting (plan, []) :=
    foldlM_map_eq _ pushCounting _ _
  -- What the loop makes of a checked use is fixed, so all uses may be checked before.
  rw [addAction, hloop]
  cases a.precondition.uses.mapM (checkUse c resolve (.action a.name)) <;> rfl

/-- The plan of a task: all uses are checked, first those in every state and then those of actions.
Their numbers are their positions, and those of each action are consecutive. -/
theorem ofTask_eq (t : Task) (c : Classification) (resolve : Bool) :
    ofTask t c resolve = (do
      let state ← t.constraints.mapM (checkStateUse c resolve)
      let actions ← t.actions.mapM fun a =>
        a.precondition.uses.mapM (checkUse c resolve (.action a.name))
      return ⟨numbered (state ++ actions.flatten),
        groups state.length (actions.map List.length)⟩) := by
  have hstate : t.constraints.foldlM (addStateUse c resolve) ⟨[], []⟩
      = (t.constraints.mapM (checkStateUse c resolve)).map fun state =>
        ⟨numbered state, []⟩ := by
    refine (foldlM_map_eq (checkStateUse c resolve) push t.constraints ⟨[], []⟩).trans ?_
    refine congrArg (Except.map · _) (funext fun state => ?_)
    exact foldl_push [] [] state
  rw [ofTask, hstate]
  cases t.constraints.mapM (checkStateUse c resolve) with
  | error e => rfl
  | ok state =>
    -- The count goes on from the uses in every state, so the groups begin behind them.
    show t.actions.foldlM (addAction c resolve) ⟨numbered state, []⟩ = _
    rw [funext fun plan => funext (addAction_eq c resolve plan), foldlM_map_eq]
    simp only [foldl_pushAction]
    cases t.actions.mapM fun a =>
      a.precondition.uses.mapM (checkUse c resolve (.action a.name)) <;> rfl

/-! ### Numbers -/

/-- What the plan has under a number is the checked use, with that number. -/
def Plans (plan : ConstraintPlan) (c : Classification) (resolve : Bool)
    (origin : ConstraintOrigin) (id : Nat) (use : ConstraintUse) : Prop :=
  ∃ numbered, plan.uses[id]? = some numbered ∧ numbered.id = id ∧
    checkUse c resolve origin use = .ok numbered.toPlannedUse

/-- The use at a position has that position as its number. -/
theorem getElem?_numbered (uses : List PlannedUse) (id : Nat) :
    (numbered uses)[id]? = uses[id]?.map fun use => { use with id } := by
  rw [numbered, List.getElem?_map, List.getElem?_zipIdx, Option.map_map]
  cases uses[id]? with
  | none => rfl
  | some use => simp

/-- The number of a use is its position. -/
theorem map_id_numbered (uses : List PlannedUse) :
    (numbered uses).map (·.id) = List.range uses.length := by
  have hids : (numbered uses).map (·.id) = uses.zipIdx.map Prod.snd := by
    rw [numbered, List.map_map]
    rfl
  rw [hids, List.zipIdx_map_snd, List.range_eq_range']

/-- What has a number is the use at that position. -/
theorem id_of_getElem?_numbered {uses : List PlannedUse} {id : Nat} {c : NumberedUse}
    (h : (numbered uses)[id]? = some c) : c.id = id := by
  rw [getElem?_numbered, Option.map_eq_some_iff] at h
  obtain ⟨use, -, rfl⟩ := h
  rfl

/-- The numbers of the deferred uses ascend. -/
theorem deferred_ids_ascend {t : Task} {c : Classification} {resolve : Bool} {plan : ConstraintPlan}
    (hplan : ofTask t c resolve = .ok plan) : (plan.deferred.map (·.id)).Pairwise (· < ·) := by
  rw [ofTask_eq] at hplan
  obtain ⟨state, -, hplan⟩ := bind_eq_ok.1 hplan
  obtain ⟨parts, -, hplan⟩ := bind_eq_ok.1 hplan
  cases hplan
  have hall := List.pairwise_lt_range (n := (state ++ parts.flatten).length)
  rw [← map_id_numbered] at hall
  exact hall.sublist (List.filter_sublist.map _)

/-- The numbers of a group belong to the members of the group. The numbers before them are taken by
`before` and by the groups in front. -/
theorem groups_getElem? (before : List PlannedUse) (parts : List (List PlannedUse))
    (position : Nat) (part : List PlannedUse) (h : parts[position]? = some part) :
    ∃ ids, (groups before.length (parts.map List.length))[position]? = some ids ∧
      List.Forall₂ (fun id use => (before ++ parts.flatten)[id]? = some use) ids part := by
  induction parts generalizing before position with
  | nil => simp at h
  | cons first rest ih =>
    rw [List.map_cons, groups, List.flatten_cons]
    cases position with
    | zero =>
      cases h
      refine ⟨List.range' before.length part.length, rfl, ?_⟩
      rw [List.forall₂_iff_get]
      refine ⟨by simp, fun i hi hi' => ?_⟩
      rw [List.get_eq_getElem, List.getElem_range', Nat.one_mul,
        List.getElem?_append_right (Nat.le_add_right _ _), Nat.add_sub_cancel_left,
        List.getElem?_append_left hi', List.getElem?_eq_getElem hi']
      rfl
    | succ position =>
      obtain ⟨ids, hids, hall⟩ := ih (before ++ first) position h
      rw [List.length_append] at hids
      rw [List.append_assoc] at hall
      exact ⟨ids, hids, hall⟩

/-- There is a group for each size. -/
theorem length_groups (start : Nat) (sizes : List Nat) :
    (groups start sizes).length = sizes.length := by
  induction sizes generalizing start with
  | nil => rfl
  | cons size rest ih => rw [groups, List.length_cons, List.length_cons, ih]

/-- Groups one after another are consecutive numbers. -/
theorem flatten_groups (start : Nat) (sizes : List Nat) :
    (groups start sizes).flatten = List.range' start sizes.sum := by
  induction sizes generalizing start with
  | nil => rfl
  | cons size rest ih =>
    -- The next group starts where this one ends.
    rw [groups, List.flatten_cons, ih, List.sum_cons, ← List.range'_append_1]

/-- The numbers of all positions, one after another, are those of all groups. -/
theorem flatMap_forAction (plan : ConstraintPlan) :
    (List.range plan.perAction.length).flatMap plan.forAction = plan.perAction.flatten := by
  show (List.range plan.perAction.length).flatMap
      (fun position => plan.perAction[position]?.getD []) = plan.perAction.flatten
  induction plan.perAction with
  | nil => rfl
  | cons group rest ih =>
    -- Past the first position, the positions are those of the rest.
    rw [List.length_cons, List.range_succ_eq_map, List.flatMap_cons, List.flatMap_map,
      List.flatten_cons, ← ih]
    rfl

/-- The numbers that a plan holds for an action belong to the uses of constraints in its
precondition, in the order of its conjuncts. -/
theorem forAction_planned {t : Task} {c : Classification} {resolve : Bool} {plan : ConstraintPlan}
    (hplan : ofTask t c resolve = .ok plan) {position : Nat} {a : Action}
    (ha : t.actions[position]? = some a) :
    List.Forall₂ (plan.Plans c resolve (.action a.name)) (plan.forAction position)
      a.precondition.uses := by
  rw [ofTask_eq] at hplan
  obtain ⟨state, -, hplan⟩ := bind_eq_ok.1 hplan
  obtain ⟨parts, hparts, hplan⟩ := bind_eq_ok.1 hplan
  cases hplan
  -- The part of the action: the checked uses of its precondition.
  obtain ⟨part, hpart, hchecked⟩ : ∃ part, parts[position]? = some part ∧
      a.precondition.uses.mapM (checkUse c resolve (.action a.name)) = .ok part := by
    have hlen := (mapM_eq_ok.1 hparts).length_eq
    obtain ⟨hlt, rfl⟩ := List.getElem?_eq_some_iff.1 ha
    have hlt' : position < parts.length := hlen ▸ hlt
    exact ⟨parts[position], List.getElem?_eq_getElem hlt',
      (List.forall₂_iff_get.1 (mapM_eq_ok.1 hparts)).2 position hlt hlt'⟩
  obtain ⟨ids, hids, hall⟩ := groups_getElem? state parts position part hpart
  rw [forAction]
  show List.Forall₂ _ ((groups state.length (parts.map List.length))[position]?.getD []) _
  rw [hids, Option.getD_some]
  refine forall₂_trans (fun id checked use hid hcheck => ?_) hall (mapM_eq_ok.1 hchecked)
  exact ⟨{ checked with id }, by rw [getElem?_numbered, hid, Option.map_some], rfl, hcheck⟩

/-- The numbers of an action ascend. -/
theorem forAction_ascend {t : Task} {c : Classification} {resolve : Bool} {plan : ConstraintPlan}
    (hplan : ofTask t c resolve = .ok plan) (position : Nat) :
    (plan.forAction position).Pairwise (· < ·) := by
  -- Every group is a stretch of consecutive numbers.
  have hgroups : ∀ (sizes : List Nat) (start position : Nat),
      ((groups start sizes)[position]?.getD []).Pairwise (· < ·) := by
    intro sizes
    induction sizes with
    | nil => intro start position; simp [groups]
    | cons size rest ih =>
      intro start position
      rw [groups]
      cases position with
      | zero => exact List.pairwise_lt_range'
      | succ position => exact ih (start + size) position
  rw [ofTask_eq] at hplan
  obtain ⟨state, -, hplan⟩ := bind_eq_ok.1 hplan
  obtain ⟨parts, -, hplan⟩ := bind_eq_ok.1 hplan
  cases hplan
  exact hgroups _ _ _

/-! ### The constraints on states -/

/-- What the check of a use makes of it. -/
theorem checkUse_eq_ok {c : Classification} {resolve : Bool} {origin : ConstraintOrigin}
    {use : ConstraintUse} {planned : PlannedUse} :
    checkUse c resolve origin use = .ok planned ↔
      ∃ d, CatalogConstraint.make use.name use.parameters (Term.texts use.args) = .ok d ∧
        planned = ⟨d, origin, resolve && isResolvable c d.kind use.args, use.args⟩ := by
  rw [checkUse, bind_eq_ok]
  refine exists_congr fun d => and_congr_right fun _ => ?_
  constructor
  · intro h
    exact (Except.ok.inj h).symm
  · rintro rfl
    rfl

/-- A checked use has the origin that it was checked for. -/
theorem origin_of_checkUse {c : Classification} {resolve : Bool} {origin : ConstraintOrigin}
    {use : ConstraintUse} {planned : PlannedUse}
    (h : checkUse c resolve origin use = .ok planned) : planned.origin = origin := by
  obtain ⟨d, -, rfl⟩ := checkUse_eq_ok.1 h
  rfl

/-- A use in every state is checked as any other one, if it mentions no parameter. -/
theorem checkUse_of_checkStateUse {c : Classification} {resolve : Bool} {use : ConstraintUse}
    {planned : PlannedUse} (h : checkStateUse c resolve use = .ok planned) :
    checkUse c resolve .state use = .ok planned := by
  rw [checkStateUse] at h
  split at h
  · cases h
  · exact h

/-- The uses of a plan: first those in every state, then those of actions. -/
theorem uses_of_ofTask {t : Task} {c : Classification} {resolve : Bool} {plan : ConstraintPlan}
    (hplan : ofTask t c resolve = .ok plan) :
    ∃ state others, plan.uses = numbered (state ++ others) ∧
      List.Forall₂ (fun use planned => checkUse c resolve .state use = .ok planned) t.constraints
        state ∧
      ∀ planned ∈ others, ∃ a ∈ t.actions, ∃ use,
        checkUse c resolve (.action a.name) use = .ok planned := by
  rw [ofTask_eq] at hplan
  obtain ⟨state, hstate, hplan⟩ := bind_eq_ok.1 hplan
  obtain ⟨parts, hparts, hplan⟩ := bind_eq_ok.1 hplan
  cases hplan
  refine ⟨state, parts.flatten, rfl,
    (mapM_eq_ok.1 hstate).imp fun _ _ => checkUse_of_checkStateUse, ?_⟩
  intro planned hplanned
  obtain ⟨part, hpart, hplanned⟩ := List.mem_flatten.1 hplanned
  obtain ⟨a, ha, hchecked⟩ := exists_counterpart (mapM_eq_ok.1 hparts) hpart
  obtain ⟨use, -, huse⟩ := exists_counterpart (mapM_eq_ok.1 hchecked) hplanned
  exact ⟨a, ha, use, huse⟩

/-- What a plan has under a number is the use with that number. -/
theorem id_of_getElem? {t : Task} {c : Classification} {resolve : Bool} {plan : ConstraintPlan}
    (hplan : ofTask t c resolve = .ok plan) {id : Nat} {use : NumberedUse}
    (h : plan.uses[id]? = some use) : use.id = id := by
  obtain ⟨state, others, huses, -, -⟩ := uses_of_ofTask hplan
  rw [huses] at h
  exact id_of_getElem?_numbered h

/-- Every use of a plan fits the catalog. -/
theorem checked_of_mem_uses {t : Task} {c : Classification} {resolve : Bool} {plan : ConstraintPlan}
    (hplan : ofTask t c resolve = .ok plan) {numbered : NumberedUse} (h : numbered ∈ plan.uses) :
    ∃ origin use, checkUse c resolve origin use = .ok numbered.toPlannedUse := by
  obtain ⟨state, others, huses, hstate, hothers⟩ := uses_of_ofTask hplan
  obtain ⟨id, hget⟩ := List.getElem?_of_mem h
  rw [huses, getElem?_numbered, Option.map_eq_some_iff] at hget
  obtain ⟨planned, hplanned, rfl⟩ := hget
  rcases List.mem_append.1 (List.mem_of_getElem? hplanned) with hmem | hmem
  · obtain ⟨use, -, huse⟩ := exists_counterpart hstate hmem
    exact ⟨_, use, huse⟩
  · obtain ⟨a, -, use, huse⟩ := hothers planned hmem
    exact ⟨_, use, huse⟩

/-- A use that fits the catalog is named after a kind of constraint. -/
theorem exists_kind_of_checkUse {c : Classification} {resolve : Bool} {origin : ConstraintOrigin}
    {use : ConstraintUse} {planned : PlannedUse}
    (h : checkUse c resolve origin use = .ok planned) :
    ∃ kind : ConstraintKind, planned.constraint.name = kind.name := by
  obtain ⟨d, hd, rfl⟩ := checkUse_eq_ok.1 h
  obtain ⟨kind, hkind, -, rfl⟩ := CatalogConstraint.make_eq_ok.1 hd
  have hname : kind.name = use.name := by simpa using List.find?_some hkind
  exact ⟨kind, hname.symm⟩

/-- The constraints on states are numbered by their positions in the task. -/
theorem state_planned {t : Task} {c : Classification} {resolve : Bool} {plan : ConstraintPlan}
    (hplan : ofTask t c resolve = .ok plan) {id : Nat} {use : ConstraintUse}
    (huse : t.constraints[id]? = some use) : plan.Plans c resolve .state id use := by
  obtain ⟨state, others, huses, hstate, -⟩ := uses_of_ofTask hplan
  obtain ⟨hlt, rfl⟩ := List.getElem?_eq_some_iff.1 huse
  have hlt' : id < state.length := hstate.length_eq ▸ hlt
  have hcheck := (List.forall₂_iff_get.1 hstate).2 id hlt hlt'
  refine ⟨{ state[id] with id }, ?_, rfl, hcheck⟩
  rw [huses, getElem?_numbered, List.getElem?_append_left hlt', List.getElem?_eq_getElem hlt',
    Option.map_some]

/-- A use that is checked during the search, by its number. -/
def IsDeferred (plan : ConstraintPlan) (id : Nat) : Prop :=
  ∃ c, plan.uses[id]? = some c ∧ c.isStatic = false

/-- The deferred constraints on states are those among the first numbers that are deferred. -/
theorem mem_stateIds_iff {t : Task} {c : Classification} {resolve : Bool} {plan : ConstraintPlan}
    (hplan : ofTask t c resolve = .ok plan) (id : Nat) :
    id ∈ (plan.deferred.filter fun c => c.origin = .state).map (·.id)
      ↔ id < t.constraints.length ∧ plan.IsDeferred id := by
  obtain ⟨state, others, huses, hstate, hothers⟩ := uses_of_ofTask hplan
  have horigin : ∀ planned ∈ state, planned.origin = .state := by
    intro planned hplanned
    obtain ⟨use, -, huse⟩ := exists_counterpart hstate hplanned
    exact origin_of_checkUse huse
  have horigin' : ∀ planned ∈ others, planned.origin ≠ .state := by
    intro planned hplanned heq
    obtain ⟨a, -, use, huse⟩ := hothers planned hplanned
    rw [origin_of_checkUse huse] at heq
    cases heq
  -- The origin of a use tells on which side of the border its number is.
  have hside : ∀ c, plan.uses[id]? = some c → (c.origin = .state ↔ id < t.constraints.length) := by
    intro c hc
    rw [huses, getElem?_numbered, Option.map_eq_some_iff] at hc
    obtain ⟨planned, hplanned, rfl⟩ := hc
    rw [hstate.length_eq]
    by_cases hlt : id < state.length
    · rw [List.getElem?_append_left hlt] at hplanned
      exact iff_of_true (horigin _ (List.mem_of_getElem? hplanned)) hlt
    · rw [List.getElem?_append_right (Nat.le_of_not_lt hlt)] at hplanned
      exact iff_of_false (horigin' _ (List.mem_of_getElem? hplanned)) hlt
  simp only [deferred, List.mem_map, List.mem_filter, decide_eq_true_eq, Bool.not_eq_true']
  constructor
  · rintro ⟨c, ⟨⟨hc, hdeferred⟩, hstate'⟩, rfl⟩
    obtain ⟨position, hget⟩ := List.getElem?_of_mem hc
    rw [← id_of_getElem? hplan hget] at hget
    exact ⟨(hside c hget).1 hstate', c, hget, hdeferred⟩
  · rintro ⟨hlt, c, hget, hdeferred⟩
    exact ⟨c, ⟨⟨List.mem_of_getElem? hget, hdeferred⟩, (hside c hget).2 hlt⟩,
      id_of_getElem? hplan hget⟩

end ConstraintPlan

end Grounder
