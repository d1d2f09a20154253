import Grounder.Code.Listing
import Grounder.Proofs.Support.Except

/-!
# `Grounder.Proofs.Code.InitListing`: the listing of the initial values

The listing has a line for each variable with a handle that the initial state gives a value. It is
made exactly when every such value has a text (`exists_code_of_initData`, `initData_eq`), and then
it shows the pairs of handles and texts, line by line.
-/

set_option autoImplicit false

namespace Grounder

open Proofs.Support

/-- The listing shows nothing but facts of the initial state. -/
theorem InitialState.mem_facts_of_mem_explicitValues {state : InitialState}
    {numbering : VariableNumbering}
    {entry : Nat × FactValue} (h : entry ∈ state.explicitValues numbering) :
    ∃ v, (v, entry.2) ∈ state.facts ∧ numbering.handle? v = some entry.1 := by
  rw [explicitValues, (List.mergeSort_perm _ _).mem_iff, List.mem_filterMap] at h
  obtain ⟨⟨v, value⟩, hfact, h⟩ := h
  obtain ⟨handle, hhandle, rfl⟩ := Option.map_eq_some_iff.1 h
  exact ⟨v, hfact, hhandle⟩

namespace GroundModel

/-- The text of a value in the listing of the initial values, empty if it has none. -/
def initCode (m : GroundModel) (value : FactValue) : String :=
  (m.valueCode "init.data" value).toOption.getD ""

/-- Every handle that the initial state gives a value, with the text of the value. -/
def initPairs (m : GroundModel) : List (Nat × String) :=
  (m.init.explicitValues m.numbering).map fun (handle, value) => (handle, m.initCode value)

/-- Handles and texts, line by line. -/
def initText (pairs : List (Nat × String)) : String :=
  Text.unlines (pairs.map fun (handle, code) => toString handle ++ " " ++ code)

variable {m : GroundModel}

/-- The listing is made only if every value has a text. -/
theorem exists_code_of_initData {listing : Artifact} (h : m.initData = .ok listing) :
    ∀ entry ∈ m.init.explicitValues m.numbering, ∃ code,
      m.valueCode "init.data" entry.2 = .ok code := by
  obtain ⟨lines, hlines, -⟩ := bind_eq_ok.1 h
  rw [mapM_eq_ok] at hlines
  intro entry hentry
  obtain ⟨line, -, hline⟩ := exists_counterpart hlines.flip hentry
  obtain ⟨code, hcode, -⟩ := bind_eq_ok.1 hline
  exact ⟨code, hcode⟩

/-- If every value has a text, the listing shows the handles with the texts. -/
theorem initData_eq (h : ∀ entry ∈ m.init.explicitValues m.numbering, ∃ code,
    m.valueCode "init.data" entry.2 = .ok code) :
    m.initData = .ok ⟨"init.data", initText m.initPairs⟩ := by
  have hlines : (m.init.explicitValues m.numbering).mapM (m.initLine "init.data")
      = .ok ((m.init.explicitValues m.numbering).map fun entry =>
        toString entry.1 ++ " " ++ m.initCode entry.2) := by
    refine mapM_eq_map fun entry hentry => ?_
    obtain ⟨code, hcode⟩ := h entry hentry
    rw [initLine, initCode, hcode]
    rfl
  rw [initData, hlines, initText, initPairs, List.map_map]
  rfl

end GroundModel

end Grounder
