import Grounder.Proofs.Compile.Builtin
import Grounder.Proofs.Code.HandleFree
import Grounder.Proofs.Compile.FileNames
import Grounder.Proofs.InitialState.Renumbering

/-!
# `Grounder.Proofs.Compile.SymbolOrder`: the order of symbols changes handles only

The order of symbols enters a compilation through the numbering of the variables and nowhere else.
So a task that compiles in one order compiles in every other one, with the same model but for the
numbering (`CodeSource.ofTask_order`). From there on a handle shows in three listings only, those of
symbols, of variables and of the initial values.

`symbolOrder_changes_handles_only` puts this together for whole compilations, from every two caches
that requests lead to.
-/

set_option autoImplicit false

namespace Grounder

open Rendering TemplateCache VariableNumbering Proofs.Support

/-! ### Grounding -/

/-- A task that is grounded in one order of symbols is grounded in every other one, with the same
model but for the handles. -/
theorem GroundModel.build_order {t : Task} {order : SymbolOrder} (order' : SymbolOrder)
    {m : GroundModel} (h : build t order = .ok m) :
    ∃ numbering, build t order' = .ok (m.withNumbering numbering) ∧
      SameVariables m.numbering numbering := by
  obtain ⟨hobjects, table, classification, numbering, init, htable, hclassification, hnumbering,
    hinit, rfl⟩ := build_eq_ok.1 h
  obtain ⟨numbering', hnumbering', hsame⟩ := ofSymbols_order order' hnumbering
  rw [InitialState.ofElements_congr hsame] at hinit
  exact ⟨numbering', build_eq_ok.2 ⟨hobjects, table, classification, numbering', init, htable,
    hclassification, hnumbering', hinit, rfl⟩, hsame⟩

/-- A task with a source in one order of symbols has one in every other order, which differs in the
handles only. -/
theorem CodeSource.ofTask_order {t : Task} {order : SymbolOrder} (order' : SymbolOrder)
    {resolveStatics : Bool} {g : CodeSource} (h : ofTask t ⟨order, resolveStatics⟩ = .ok g) :
    ∃ numbering, ofTask t ⟨order', resolveStatics⟩ = .ok (g.withNumbering numbering) ∧
      SameVariables g.model.numbering numbering := by
  obtain ⟨model, hmodel, h⟩ := bind_eq_ok.1 h
  obtain ⟨plan, hplan, h⟩ := bind_eq_ok.1 h
  cases h
  obtain ⟨numbering, hmodel', hsame⟩ := GroundModel.build_order order' hmodel
  refine ⟨numbering, ?_, hsame⟩
  rw [ofTask, hmodel']
  show (ConstraintPlan.ofTask t model.classification resolveStatics >>= _) = _
  rw [hplan]
  rfl

/-! ### The listing of the initial values -/

namespace GroundModel

variable {m : GroundModel}

/-- Under other handles, the listing shows the same texts at the handles of the same variables. -/
theorem initPairs_withNumbering {numbering : VariableNumbering}
    (h : SameVariables m.numbering numbering) :
    (m.withNumbering numbering).initPairs.Perm
      (m.initPairs.map fun (handle, code) => (rehandle m.numbering numbering handle, code)) := by
  have hvalues := (m.init.explicitValues_perm h).map fun entry => (entry.1, m.initCode entry.2)
  rw [List.map_map] at hvalues
  rw [initPairs, initPairs, List.map_map]
  exact hvalues

/-- Under other handles, the listing is made as well. -/
theorem initData_withNumbering {numbering : VariableNumbering}
    (hsame : SameVariables m.numbering numbering) {listing : Artifact}
    (h : m.initData = .ok listing) :
    listing = ⟨"init.data", initText m.initPairs⟩ ∧
      (m.withNumbering numbering).initData
        = .ok ⟨"init.data", initText (m.withNumbering numbering).initPairs⟩ := by
  have hcodes := exists_code_of_initData h
  rw [initData_eq hcodes] at h
  refine ⟨(Except.ok.inj h).symm, initData_eq fun entry hentry => ?_⟩
  -- The value stands in the first listing too, at another handle.
  obtain ⟨entry', hentry', hmap⟩ :=
    List.mem_map.1 ((m.init.explicitValues_perm hsame).mem_iff.1 hentry)
  rw [← hmap]
  exact hcodes entry' hentry'

end GroundModel

/-! ### Artifacts -/

/-- The files that show handles. -/
def handleListings : List String := ["symbols.data", "variables.data", "init.data"]

/-- An artifact that is the same in two runs, unless it shows handles. -/
def Corresponds (a a' : Artifact) : Prop := a.name = a'.name ∧ (a.name ∉ handleListings → a = a')

theorem Corresponds.refl (a : Artifact) : Corresponds a a := ⟨rfl, fun _ => rfl⟩

/-- Artifacts that show handles correspond if they have the same name. -/
theorem Corresponds.of_mem {a a' : Artifact} (h : a.name = a'.name)
    (hmem : a.name ∈ handleListings) : Corresponds a a' := ⟨h, fun hnot => absurd hmem hnot⟩

/-- Sets of artifacts that correspond, one by one, correspond in the order of their names. -/
theorem ArtifactSet.corresponds_ofList {artifacts artifacts' : List Artifact}
    (h : List.Forall₂ Corresponds artifacts artifacts') :
    List.Forall₂ Corresponds (ofList artifacts).artifacts (ofList artifacts').artifacts := by
  -- Pairs of artifacts are sorted as either component is, since their names are the same.
  obtain ⟨pairs, hpairs, rfl, rfl⟩ : ∃ pairs : List (Artifact × Artifact),
      (∀ pair ∈ pairs, Corresponds pair.1 pair.2) ∧ artifacts = pairs.map Prod.fst ∧
        artifacts' = pairs.map Prod.snd := by
    obtain ⟨hlength, hzip⟩ := List.forall₂_iff_zip.1 h
    exact ⟨artifacts.zip artifacts', fun _ hmem => hzip hmem,
      (List.map_fst_zip hlength.le).symm, (List.map_snd_zip hlength.ge).symm⟩
  let before (pair pair' : Artifact × Artifact) : Bool := pair.1.name ≤ pair'.1.name
  have hfst : (pairs.mergeSort before).map Prod.fst = (ofList (pairs.map Prod.fst)).artifacts :=
    List.map_mergeSort fun _ _ _ _ => rfl
  have hsnd : (pairs.mergeSort before).map Prod.snd = (ofList (pairs.map Prod.snd)).artifacts := by
    refine List.map_mergeSort fun pair hpair pair' hpair' => ?_
    simp only [before, (hpairs pair hpair).1, (hpairs pair' hpair').1]
  rw [← hfst, ← hsnd, List.forall₂_map_left_iff, List.forall₂_map_right_iff, List.forall₂_same]
  intro pair hmem
  exact hpairs pair ((List.mergeSort_perm _ _).mem_iff.1 hmem)

namespace CodeSource

variable {g : CodeSource} {numbering : VariableNumbering}

/-- Under other handles, the listings are made as well, and correspond. -/
theorem listings_withNumbering (hsame : SameVariables g.model.numbering numbering)
    {listings : List Artifact} (h : g.listings = .ok listings) :
    ∃ listings', (g.withNumbering numbering).listings = .ok listings' ∧
      List.Forall₂ Corresponds listings listings' := by
  obtain ⟨initData, hinit, h⟩ := bind_eq_ok.1 h
  obtain ⟨staticData, hstatic, h⟩ := bind_eq_ok.1 h
  cases h
  obtain ⟨rfl, hinit'⟩ := GroundModel.initData_withNumbering hsame hinit
  have hstatic' : (g.withNumbering numbering).model.staticDataUnits = .ok staticData := hstatic
  refine ⟨_, bind_eq_ok.2 ⟨_, hinit', bind_eq_ok.2 ⟨_, hstatic', rfl⟩⟩, ?_⟩
  refine List.rel_append (.cons ?_ (.cons ?_ (.cons (.refl _) (.cons ?_ (.cons (.refl _) .nil)))))
    (List.forall₂_same.2 fun a _ => .refl a)
  · exact .of_mem rfl (by simp [GroundModel.symbolsData, handleListings])
  · exact .of_mem rfl (by simp [GroundModel.variablesData, handleListings])
  · exact .of_mem rfl (by simp [handleListings])

/-- Under other handles, all artifacts are made as well, and correspond. -/
theorem artifactsAfresh_withNumbering (hsame : SameVariables g.model.numbering numbering)
    {overrides : Overrides} {set : ArtifactSet} (h : g.artifactsAfresh overrides = .ok set) :
    ∃ set', (g.withNumbering numbering).artifactsAfresh overrides = .ok set' ∧
      List.Forall₂ Corresponds set.artifacts set'.artifacts := by
  obtain ⟨units, components, listings, hunits, hcomponents, hlistings, rfl⟩ :=
    artifactsAfresh_eq_ok.1 h
  obtain ⟨listings', hlistings', hcorresponds⟩ := listings_withNumbering hsame hlistings
  rw [← g.independentUnits_withNumbering numbering] at hunits
  rw [← g.componentsUnit_withNumbering numbering hsame.size_eq.symm] at hcomponents
  refine ⟨_, bind_eq_ok.2 ⟨_, hunits, bind_eq_ok.2 ⟨_, hcomponents,
    bind_eq_ok.2 ⟨_, hlistings', rfl⟩⟩⟩, ?_⟩
  apply ArtifactSet.corresponds_ofList
  exact List.rel_append (List.forall₂_same.2 fun a _ => .refl a) (.cons (.refl _) hcorresponds)

/-- The listing of the initial values stands among the artifacts. -/
theorem get?_initData {overrides : Overrides} {set : ArtifactSet}
    (h : g.artifactsAfresh overrides = .ok set) :
    set.get? "init.data" = some ⟨"init.data", GroundModel.initText g.model.initPairs⟩ := by
  obtain ⟨units, components, listings, -, hcomponents, hlistings, -⟩ := artifactsAfresh_eq_ok.1 h
  obtain ⟨initData, hinit, hrest⟩ := bind_eq_ok.1 hlistings
  rw [GroundModel.initData_eq (GroundModel.exists_code_of_initData hinit)] at hinit
  cases hinit
  obtain ⟨staticData, -, hrest⟩ := bind_eq_ok.1 hrest
  cases hrest
  exact get?_of_mem_fixedNames (a := ⟨"init.data", _⟩) h hcomponents hlistings (by simp)
    (by simp [fixedNames])

end CodeSource

/-- Two compilations that differ in handles only. They have the same classification, the same
initial state and the same files, and the files are the same unless they show handles. A one-to-one
map between the ranges of handles takes each handle to that of the same variable, and what one
listing of initial values shows at a handle, the other one shows at the handle to which it is
taken. -/
structure DifferInHandles (out out' : Compilation) : Prop where
  classification : out.model.classification = out'.model.classification
  init : out.model.init = out'.model.init
  names : out.artifacts.names = out'.artifacts.names
  artifacts : List.Forall₂ Corresponds out.artifacts.artifacts out'.artifacts.artifacts
  handles : ∃ σ : Nat → Nat,
    Set.BijOn σ (Set.Iio out.model.numbering.size) (Set.Iio out'.model.numbering.size) ∧
    (∀ handle < out.model.numbering.size,
      out'.model.numbering.variableAt? (σ handle) = out.model.numbering.variableAt? handle) ∧
    out.artifacts.get? "init.data"
      = some ⟨"init.data", GroundModel.initText out.model.initPairs⟩ ∧
    out'.artifacts.get? "init.data"
      = some ⟨"init.data", GroundModel.initText out'.model.initPairs⟩ ∧
    out'.model.initPairs.Perm
      (out.model.initPairs.map fun (handle, code) => (σ handle, code))

/-- If a task compiles in one order of symbols, it compiles in every other one, with nothing but
other handles. -/
theorem compileAfresh_order {t : Task} {order : SymbolOrder} (order' : SymbolOrder)
    {resolveStatics : Bool} {overrides : Overrides} {out : Compilation}
    (h : compileAfresh t ⟨order, resolveStatics⟩ overrides = .ok out) :
    ∃ out', compileAfresh t ⟨order', resolveStatics⟩ overrides = .ok out' ∧
      DifferInHandles out out' := by
  obtain ⟨model, plan, set⟩ := out
  obtain ⟨g, hg, rfl, rfl, hset⟩ := compileAfresh_eq_ok.1 h
  obtain ⟨numbering, hg', hsame⟩ := CodeSource.ofTask_order order' hg
  obtain ⟨set', hset', hcorresponds⟩ := CodeSource.artifactsAfresh_withNumbering hsame hset
  refine ⟨⟨(g.withNumbering numbering).model, g.plan, set'⟩,
    compileAfresh_eq_ok.2 ⟨_, hg', rfl, rfl, hset'⟩, rfl, rfl,
    map_eq_map (hcorresponds.imp fun _ _ => And.left), hcorresponds, ?_⟩
  exact ⟨rehandle g.model.numbering numbering, hsame.bijOn_rehandle,
    fun handle hlt => hsame.variableAt? hlt,
    CodeSource.get?_initData hset, CodeSource.get?_initData hset',
    GroundModel.initPairs_withNumbering hsame⟩

/-- The order of symbols changes handles only. A task compiles in one order exactly when it compiles
in another one, with the same decision about static constraints and the same overrides, and the two
compilations differ in handles only. -/
theorem symbolOrder_changes_handles_only (t : Task) (order order' : SymbolOrder)
    (resolveStatics : Bool) (overrides : Overrides) (requests requests' : List String) :
    ((∃ out, (compile t ⟨order, resolveStatics⟩ overrides
        (afterRequests overrides requests)).1 = .ok out) ↔
      ∃ out', (compile t ⟨order', resolveStatics⟩ overrides
        (afterRequests overrides requests')).1 = .ok out') ∧
    ∀ out out',
      (compile t ⟨order, resolveStatics⟩ overrides (afterRequests overrides requests)).1
        = .ok out →
      (compile t ⟨order', resolveStatics⟩ overrides (afterRequests overrides requests')).1
        = .ok out' →
      DifferInHandles out out' := by
  rw [compile_fst t _ (faithful_afterRequests overrides requests),
    compile_fst t _ (faithful_afterRequests overrides requests')]
  refine ⟨⟨?_, ?_⟩, ?_⟩
  · rintro ⟨out, h⟩
    obtain ⟨out', h', -⟩ := compileAfresh_order order' h
    exact ⟨out', h'⟩
  · rintro ⟨out', h'⟩
    obtain ⟨out, h, -⟩ := compileAfresh_order order h'
    exact ⟨out, h⟩
  · intro out out' h h'
    obtain ⟨_, hsame, hdiffer⟩ := compileAfresh_order order' h
    rw [h'] at hsame
    cases hsame
    exact hdiffer

/-- `parkingTask` with a place that is free at first. -/
def freePlaceTask : Task := { parkingTask with init := [.atom "free" ["x"] false] }

/-- `freePlaceTask` compiles in both orders, with nothing but other handles. -/
theorem symbolOrder_changes_handles_only_freePlace :
    ∃ out out',
      (compile freePlaceTask ⟨.declaration, false⟩ Overrides.none
        (afterRequests Overrides.none [])).1 = .ok out ∧
      (compile freePlaceTask ⟨.arity, false⟩ Overrides.none
        (afterRequests Overrides.none [])).1 = .ok out' ∧
      DifferInHandles out out' := by
  obtain ⟨hiff, hdiffer⟩ := symbolOrder_changes_handles_only freePlaceTask .declaration .arity false
    Overrides.none [] []
  have hcompiles : compiles freePlaceTask ⟨.declaration, false⟩ = true := by decide +kernel
  obtain ⟨out, hout⟩ := exists_compilation hcompiles []
  obtain ⟨out', hout'⟩ := hiff.1 ⟨out, hout⟩
  exact ⟨out, out', hout, hout', hdiffer out out' hout hout'⟩

end Grounder
