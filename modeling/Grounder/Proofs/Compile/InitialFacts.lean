import Grounder.Proofs.Code.InitialFacts
import Grounder.Proofs.Compile.Files

/-!
# `Grounder.Proofs.Compile.InitialFacts`: no initial fact gets lost

A compiled task lists its initial facts in several files: one for all fluent symbols, and one for
each static symbol. `initial_facts_listed` says that every element of the initial state has a line
of its own in one of them, that the lines show what the elements say, and that there are no others.
-/

set_option autoImplicit false

namespace Grounder

open Rendering TemplateCache Proofs.Support

/-- The only file of that name consists of these lines. -/
def ArtifactSet.HasLines (set : ArtifactSet) (name : String) (lines : List String) : Prop :=
  set.filesNamed name = [⟨name, Text.unlines lines⟩] ∧ Text.lines (Text.unlines lines) = lines

/-- The initial facts of a task are listed. Those about fluent symbols are pairs of handles and
texts, and those about a static symbol are lines of its own. -/
structure ListsInitialFacts (t : Task) (out : Compilation) (pairs : List (Nat × String))
    (lines : Symbol → List String) : Prop where
  /-- There is one listing of the initial values, with a line for each pair. -/
  listing : out.artifacts.HasLines "init.data"
    (pairs.map fun (handle, code) => toString handle ++ " " ++ code)
  /-- The lines are in the order of their handles, and no handle occurs twice. -/
  ascend : pairs.Pairwise (·.1 < ·.1)
  /-- Each element about a fluent symbol has one line, which shows its handle and its value. -/
  fluents : (pairs.map some).Perm
    ((t.init.filter fun e => out.model.classification.isFluent e.symbol).map out.model.initialPair?)
  /-- There is one file for each static symbol but equality, with a line for each element about the
  symbol. -/
  statics : ∀ s ∈ out.model.listedSymbols,
    out.artifacts.HasLines (GroundModel.staticUnitName s.name) (lines s) ∧
    (lines s).Perm ((t.init.filter (·.symbol = s.name)).map (out.model.elementLine s))
  /-- There are as many lines in all files as there are elements. -/
  count : pairs.length + (out.model.listedSymbols.map fun s => (lines s).length).sum
    = t.init.length

namespace CodeSource

variable {t : Task} {order : SymbolOrder} {g : CodeSource} {overrides : Overrides}
  {set : ArtifactSet}

/-- The listing of the initial values is the only file of its name. -/
theorem hasLines_initData (hmodel : GroundModel.build t order = .ok g.model)
    (hset : g.artifactsAfresh overrides = .ok set) :
    set.HasLines "init.data"
      (g.model.initPairs.map fun (handle, code) => toString handle ++ " " ++ code) := by
  obtain ⟨units, components, listings, -, hcomponents, hlistings, -⟩ := artifactsAfresh_eq_ok.1 hset
  refine ⟨filesNamed_other (a := ⟨"init.data", GroundModel.initText g.model.initPairs⟩) hmodel hset
    hcomponents hlistings ?_, GroundModel.lines_initText hmodel⟩
  obtain ⟨initData, staticData, hinit, -, rfl⟩ := listings_eq_ok.1 hlistings
  rw [GroundModel.initData_eq (GroundModel.exists_code_of_initData hinit)] at hinit
  cases hinit
  simp

/-- The file of a static symbol is the only one of its name. -/
theorem hasLines_staticData (hmodel : GroundModel.build t order = .ok g.model)
    (hset : g.artifactsAfresh overrides = .ok set) {s : Symbol}
    (hs : s ∈ g.model.listedSymbols) :
    set.HasLines (GroundModel.staticUnitName s.name) (g.model.staticLines s) := by
  obtain ⟨hs, hstatic, hne⟩ := GroundModel.mem_listedSymbols.1 hs
  obtain ⟨a, ha, -⟩ := GroundModel.exists_extension hmodel hs hne
  obtain ⟨units, hunits, hfiles⟩ := GroundModel.exists_staticDataUnits hmodel
  obtain ⟨hlines, hmem⟩ := hfiles s hs hstatic a ha
  obtain ⟨-, components, listings, -, hcomponents, hlistings, -⟩ := artifactsAfresh_eq_ok.1 hset
  rw [GroundModel.staticLines, ha, Option.map_some, Option.getD_some]
  refine ⟨filesNamed_other (a := ⟨GroundModel.staticUnitName s.name, _⟩) hmodel hset hcomponents
    hlistings ?_, GroundModel.lines_staticData hlines⟩
  obtain ⟨initData, staticData, -, hstaticData, rfl⟩ := listings_eq_ok.1 hlistings
  obtain rfl : units = staticData := Except.ok.inj (hunits.symm.trans hstaticData)
  exact List.mem_cons_of_mem _ (List.mem_append_right _ hmem)

end CodeSource

/-- Every initial fact of a compiled task is listed once, whatever the templates are. -/
theorem initial_facts_listed {t : Task} {o : CompileOptions} {overrides : Overrides}
    (requests : List String) {out : Compilation}
    (h : (compile t o overrides (afterRequests overrides requests)).1 = .ok out) :
    ∃ pairs lines, ListsInitialFacts t out pairs lines := by
  rw [compile_fst t o (faithful_afterRequests overrides requests)] at h
  obtain ⟨model, plan, set⟩ := out
  obtain ⟨g, hg, rfl, rfl, hset⟩ := compileAfresh_eq_ok.1 h
  have hmodel := CodeSource.build_of_ofTask hg
  refine ⟨g.model.initPairs, g.model.staticLines, CodeSource.hasLines_initData hmodel hset,
    GroundModel.initPairs_ascend hmodel, GroundModel.initPairs_perm hmodel, fun s hs => ?_,
    GroundModel.length_initPairs_add hmodel⟩
  obtain ⟨hmem, -, hne⟩ := GroundModel.mem_listedSymbols.1 hs
  exact ⟨CodeSource.hasLines_staticData hmodel hset hs,
    GroundModel.staticLines_perm hmodel hmem hne⟩

/-- `parkingTask` with two free places and a weight. -/
def weighingTask : Task := { VariableNumbering.parkingTask with
  functions := [⟨"weight", ["car"], "int"⟩]
  init := [.atom "free" ["z"] false, .assign "weight" ["b"] "7", .atom "free" ["x"] false] }

/-- The facts of `weighingTask` are listed, the two about places by their handles. -/
theorem initial_facts_listed_weighing :
    ∃ out pairs lines, (compile weighingTask ⟨.declaration, false⟩ Overrides.none
        (afterRequests Overrides.none [])).1 = .ok out ∧
      ListsInitialFacts weighingTask out pairs lines ∧
      (pairs.map some).Perm [some (8, "_true_"), some (6, "_true_")] := by
  have hcompiles : compiles weighingTask ⟨.declaration, false⟩ = true := by decide +kernel
  obtain ⟨out, hout⟩ := exists_compilation hcompiles []
  obtain ⟨pairs, lines, hlists⟩ := initial_facts_listed [] hout
  refine ⟨out, pairs, lines, hout, hlists, ?_⟩
  obtain ⟨g, hg, hmodel, -, -⟩ := compileAfresh_eq_ok.1
    ((compile_fst _ _ (faithful_afterRequests Overrides.none [])).symm.trans hout)
  have hpairs := feature_eq hg (f := fun g => (weighingTask.init.filter fun e =>
    g.model.classification.isFluent e.symbol).map g.model.initialPair?)
    (b := [some (8, "_true_"), some (6, "_true_")]) (by decide +kernel)
  have hfluents := hlists.fluents
  rw [hmodel, hpairs] at hfluents
  exact hfluents

end Grounder
