import Grounder.Template.Rendering

/-!
# `Grounder.Proofs.Template.Rendering`: what a rendering amounts to

A cache answers the requests of a rendering, and remembers what it found. None of this shows in
the result. `Rendering.result` is the rendering with every template loaded afresh, and the
theorems tie the two together:

* `faithful_run`: a cache that only holds what a fresh load would give still does after a run.
* `run_fst`: the result of a run from such a cache is `Rendering.result`.
* `faithful_afterRequests`: every cache reached from the empty one by requests is of this kind.

`Rendering.result` respects the sequencing of renderings (`result_bind`), so what a rendering with
a result went through can be taken apart step by step (`result_bind_eq_ok`).
-/

set_option autoImplicit false

namespace Grounder

namespace TemplateCache

/-- A cache holds nothing but what a fresh load of the files would give. -/
def Faithful (overrides : Overrides) (cache : TemplateCache) : Prop :=
  ∀ name t, cache.find? name = some t → load overrides name = .ok t

/-- The cache after requests for templates, one after another, starting from the empty one. -/
def afterRequests (overrides : Overrides) (names : List String) : TemplateCache :=
  names.foldl (fun cache name => (cache.get overrides name).2) empty

variable {overrides : Overrides} {cache : TemplateCache}

/-- The empty cache holds nothing, so it is faithful. -/
theorem faithful_empty : Faithful overrides empty := by
  intro name t h
  simp [find?, empty] at h

/-- A request to a faithful cache is answered as a fresh load would be. -/
theorem get_fst (h : Faithful overrides cache) (name : String) :
    (cache.get overrides name).1 = load overrides name := by
  unfold get
  cases hfind : cache.find? name with
  | some t => exact (h name t hfind).symm
  | none =>
    cases hload : load overrides name with
    | ok t => rfl
    | error e => rfl

/-- A request keeps a cache faithful: the only entry it adds is the template just loaded. -/
theorem faithful_get (h : Faithful overrides cache) (name : String) :
    Faithful overrides (cache.get overrides name).2 := by
  unfold get
  cases hfind : cache.find? name with
  | some t => exact h
  | none =>
    cases hload : load overrides name with
    | error e => exact h
    | ok t =>
      intro other t' hother
      rw [find?, List.lookup_cons] at hother
      split at hother
      · rename_i heq
        rw [beq_iff_eq] at heq
        cases hother
        rw [heq, hload]
      · exact h other t' hother

/-- Every cache reached by requests is faithful. -/
theorem faithful_afterRequests (overrides : Overrides) (names : List String) :
    Faithful overrides (afterRequests overrides names) := by
  unfold afterRequests
  suffices h : ∀ cache, Faithful overrides cache →
      Faithful overrides (names.foldl (fun cache name => (cache.get overrides name).2) cache) from
    h empty faithful_empty
  induction names with
  | nil => intro cache h; exact h
  | cons name rest ih => intro cache h; exact ih _ (faithful_get h name)

end TemplateCache

namespace Rendering

open TemplateCache

variable {α β : Type} {overrides : Overrides}

/-- The result of a rendering whose templates are loaded afresh on every request. -/
def result (overrides : Overrides) : Rendering α → Except CompileError α
  | .done r => r
  | .ask name next =>
    match load overrides name with
    | .ok t => (next t).result overrides
    | .error e => .error e

/-- A run keeps a cache faithful, whatever the rendering asks for and however it ends. -/
theorem faithful_run (r : Rendering α) {cache : TemplateCache} (h : Faithful overrides cache) :
    Faithful overrides (r.run overrides cache).2 := by
  induction r generalizing cache with
  | done result => exact h
  | ask name next ih =>
    have hget := faithful_get h name
    rw [run]
    split
    · rename_i t cache' heq
      rw [heq] at hget
      exact ih t hget
    · rename_i e cache' heq
      rw [heq] at hget
      exact hget

/-- From a faithful cache, the result of a run is that of the rendering with every template
loaded afresh. -/
theorem run_fst (r : Rendering α) {cache : TemplateCache} (h : Faithful overrides cache) :
    (r.run overrides cache).1 = r.result overrides := by
  induction r generalizing cache with
  | done result => rfl
  | ask name next ih =>
    have hfst := get_fst h name
    have hget := faithful_get h name
    rw [run, result]
    split
    · rename_i t cache' heq
      rw [heq] at hfst hget
      rw [← hfst]
      exact ih t hget
    · rename_i e cache' heq
      rw [heq] at hfst
      rw [← hfst]

/-! ### Sequencing -/

/-- A value is its own result. -/
@[simp] theorem result_pure (a : α) : (pure a : Rendering α).result overrides = .ok a := rfl

/-- An error is its own result. -/
@[simp] theorem result_fail (e : CompileError) :
    (fail e : Rendering α).result overrides = .error e := rfl

/-- What grounding gives is the result, with its errors among those of compiling. -/
@[simp] theorem result_ofGround (r : Except GroundingError α) :
    (ofGround r).result overrides = r.mapError .ground := rfl

/-- The result of two renderings, one after the other. -/
theorem result_bind (r : Rendering α) (f : α → Rendering β) :
    (r >>= f).result overrides = r.result overrides >>= fun a => (f a).result overrides := by
  show (r.bind f).result overrides = _
  induction r with
  | done result =>
    cases result with
    | ok a => rfl
    | error e => rfl
  | ask name next ih =>
    rw [bind, result, result]
    cases load overrides name with
    | ok t => exact ih t
    | error e => rfl

/-- A sequence has a result exactly when both of its parts have one. -/
@[simp] theorem result_bind_eq_ok (r : Rendering α) (f : α → Rendering β) (b : β) :
    (r >>= f).result overrides = .ok b
      ↔ ∃ a, r.result overrides = .ok a ∧ (f a).result overrides = .ok b := by
  rw [result_bind]
  cases r.result overrides with
  | ok a => simp [Bind.bind, Except.bind]
  | error e => simp [Bind.bind, Except.bind]

/-- Mapping a function over a rendering maps it over the result. -/
@[simp] theorem result_map_eq_ok (f : α → β) (r : Rendering α) (b : β) :
    (f <$> r).result overrides = .ok b ↔ ∃ a, r.result overrides = .ok a ∧ f a = b := by
  show (r >>= fun a => pure (f a)).result overrides = .ok b ↔ _
  rw [result_bind_eq_ok]
  simp

end Rendering

end Grounder
