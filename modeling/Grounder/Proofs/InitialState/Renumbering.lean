import Grounder.InitialState
import Grounder.Proofs.Renumbering

/-!
# `Grounder.Proofs.InitialState.Renumbering`: initial states under other handles

The compiler of the initial state asks a numbering whether a symbol has handles and whether a
variable has one, and never which one it is. So numberings with the same variables accept the same
elements and give the same state, or the same error (`ofElements_congr`). The listing of the facts
that have handles does show them. It lists the same facts, each under the handle that its variable
has there (`explicitValues_perm`).
-/

set_option autoImplicit false

namespace Grounder

namespace InitialState

open VariableNumbering

variable {table : SymbolTable} {numbering numbering' : VariableNumbering}

/-- Arguments lie in the domains of a symbol under both numberings or under none. -/
theorem inDomains_congr (h : SameVariables numbering numbering') (s : Symbol) (v : StateVariable) :
    inDomains table numbering s v = inDomains table numbering' s v := by
  rw [inDomains, inDomains, h.isSome_block?, h.isSome_handle?]

/-- An element says the same under both numberings. -/
theorem checkElement_congr (h : SameVariables numbering numbering') (e : InitialFact) :
    checkElement table numbering e = checkElement table numbering' e := by
  simp only [checkElement, inDomains_congr h]

/-- Elements make the same state under both numberings, or fail with the same error. -/
theorem ofElements_congr (h : SameVariables numbering numbering') (elements : List InitialFact) :
    ofElements table numbering elements = ofElements table numbering' elements := by
  have hadd : add table numbering = add table numbering' := by
    funext state e
    rw [add, add, checkElement_congr h]
  rw [ofElements, ofElements, hadd]

/-- The facts that have handles, symbol by symbol. -/
theorem filterMap_handle? (h : SameVariables numbering numbering')
    (facts : List (StateVariable × FactValue)) :
    (facts.filterMap fun (v, value) => (numbering'.handle? v).map fun handle => (handle, value))
      = (facts.filterMap fun (v, value) =>
          (numbering.handle? v).map fun handle => (handle, value)).map
            fun (handle, value) => (rehandle numbering numbering' handle, value) := by
  rw [List.map_filterMap]
  refine List.filterMap_congr fun fact _ => ?_
  obtain ⟨v, value⟩ := fact
  simp only [h.handle? v, Option.map_map]
  rfl

/-- The explicit values are the same under both numberings, but for the handles. -/
theorem explicitValues_perm (h : SameVariables numbering numbering') (state : InitialState) :
    (state.explicitValues numbering').Perm ((state.explicitValues numbering).map
      fun (handle, value) => (rehandle numbering numbering' handle, value)) := by
  rw [explicitValues, explicitValues]
  refine (List.mergeSort_perm _ _).trans ?_
  rw [filterMap_handle? h]
  exact ((List.mergeSort_perm _ _).map _).symm

end InitialState

end Grounder
