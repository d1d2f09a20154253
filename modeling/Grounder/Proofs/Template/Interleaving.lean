import Grounder.Proofs.Template.Requests
import Mathlib.Logic.Relation

/-!
# `Grounder.Proofs.Template.Interleaving`: renderings that share a cache

Several renderings may wait for templates at the same time. A `Pool` holds them together with the
cache that they share. In one step of a pool, some rendering that waits is given an answer of the
cache, and which one it is, is left open. A step happens as a whole: while a cache looks for one
template, it answers no other request.

An interleaving is a run of such steps. What a step keeps (`keeps_of_step`) is kept by every run
(`keeps_of_reaches`):

* the cache stays faithful,
* every rendering keeps the result that it has with each template loaded afresh,
* the requests that are still to come lead from the cache to caches that are alike.

So a run that has come to its end has the results of the renderings on their own, and it has made
the requests of all of them. Every step answers one request (`length_pending_of_step`), so there
are no infinite runs, and a pool with a rendering that waits can always go on
(`exists_finished`).
-/

set_option autoImplicit false

namespace Grounder

open Rendering TemplateCache

/-- Renderings that share a cache. -/
structure Pool (α : Type) where
  units : List (Rendering α)
  cache : TemplateCache

namespace Pool

variable {α : Type} {overrides : Overrides}

/-- A rendering that goes on with an answer: with a template, or not at all. -/
def resume (next : Template → Rendering α) : Except CompileError Template → Rendering α
  | .ok t => next t
  | .error e => .done (.error e)

/-- One of the renderings that wait gets its answer. -/
inductive Step (overrides : Overrides) : Pool α → Pool α → Prop where
  | answer (before after : List (Rendering α)) (name : String) (next : Template → Rendering α)
      (cache : TemplateCache) :
    Step overrides ⟨before ++ .ask name next :: after, cache⟩
      ⟨before ++ resume next (cache.get overrides name).1 :: after,
        (cache.get overrides name).2⟩

/-- Steps, one after another. -/
def Reaches (overrides : Overrides) : Pool α → Pool α → Prop :=
  Relation.ReflTransGen (Step overrides)

/-- The pool in which every rendering has ended. -/
def finished (results : List (Except CompileError α)) (cache : TemplateCache) : Pool α :=
  ⟨results.map .done, cache⟩

/-- The requests that the renderings of a pool still make, rendering by rendering. -/
def pending (overrides : Overrides) (p : Pool α) : List String :=
  p.units.flatMap (requests overrides)

/-! ### What a step keeps -/

/-- What one pool has in common with another one that steps lead to. -/
structure Keeps (overrides : Overrides) (p p' : Pool α) : Prop where
  faithful : Faithful overrides p'.cache
  results : p'.units.map (result overrides) = p.units.map (result overrides)
  requests : Alike (requestAll overrides p'.cache (p'.pending overrides))
    (requestAll overrides p.cache (p.pending overrides))

/-- A rendering that goes on with the template that it asked for keeps its result. -/
theorem result_resume (name : String) (next : Template → Rendering α) :
    (resume next (load overrides name)).result overrides
      = (Rendering.ask name next).result overrides := by
  rw [result]
  cases load overrides name with
  | ok t => rfl
  | error e => rfl

/-- The requests of a rendering are the one that it waits for and those after its answer. -/
theorem requests_ask (name : String) (next : Template → Rendering α) :
    (Rendering.ask name next).requests overrides
      = name :: (resume next (load overrides name)).requests overrides := by
  rw [Rendering.requests]
  cases load overrides name with
  | ok t => rfl
  | error e => rfl

/-- A step from a faithful cache answers one of the requests that the pool still makes. -/
theorem pending_of_step {p p' : Pool α} (hfaithful : Faithful overrides p.cache)
    (h : Step overrides p p') :
    ∃ name, p'.cache = (p.cache.get overrides name).2 ∧
      (p.pending overrides).Perm (name :: p'.pending overrides) := by
  cases h with
  | answer before after name next cache =>
    refine ⟨name, rfl, ?_⟩
    simp only [pending, List.flatMap_append, List.flatMap_cons, get_fst hfaithful, requests_ask]
    exact List.perm_middle

/-- A step from a faithful cache keeps all of this. -/
theorem keeps_of_step {p p' : Pool α} (hfaithful : Faithful overrides p.cache)
    (h : Step overrides p p') : Keeps overrides p p' := by
  obtain ⟨name, hcache, hpending⟩ := pending_of_step hfaithful h
  refine ⟨?_, ?_, ?_⟩
  · rw [hcache]
    exact faithful_get hfaithful name
  · cases h with
    | answer before after name next cache =>
      simp only [List.map_append, List.map_cons, get_fst hfaithful, result_resume]
  · rw [hcache, ← requestAll_cons]
    exact requestAll_perm hpending.symm

/-- A run from a faithful cache keeps all of this. -/
theorem keeps_of_reaches {p p' : Pool α} (hfaithful : Faithful overrides p.cache)
    (h : Reaches overrides p p') : Keeps overrides p p' := by
  induction h with
  | refl => exact ⟨hfaithful, rfl, .refl _⟩
  | tail _ hstep ih =>
    have hkeeps := keeps_of_step ih.faithful hstep
    exact ⟨hkeeps.faithful, hkeeps.results.trans ih.results, hkeeps.requests.trans ih.requests⟩

/-- A run that has come to its end has the results of the renderings on their own, and has made the
requests of all of them. -/
theorem finished_of_reaches {units : List (Rendering α)} {cache : TemplateCache}
    (hfaithful : Faithful overrides cache) {results : List (Except CompileError α)}
    {cache' : TemplateCache} (h : Reaches overrides ⟨units, cache⟩ (finished results cache')) :
    results = units.map (result overrides) ∧ Faithful overrides cache' ∧
      Alike cache' (requestAll overrides cache (units.flatMap (requests overrides))) := by
  obtain ⟨hfaithful', hresults, hrequests⟩ := keeps_of_reaches hfaithful h
  refine ⟨?_, hfaithful', ?_⟩
  · rw [← hresults]
    simp [finished, Function.comp_def, result]
  · -- Nothing is pending any more.
    have hnone : (finished results cache').pending overrides = [] := by
      simp [finished, pending, Rendering.requests]
    rw [hnone] at hrequests
    exact hrequests

/-! ### Every run comes to an end -/

/-- A step answers one request. -/
theorem length_pending_of_step {p p' : Pool α} (hfaithful : Faithful overrides p.cache)
    (h : Step overrides p p') :
    (p.pending overrides).length = (p'.pending overrides).length + 1 := by
  obtain ⟨name, -, hpending⟩ := pending_of_step hfaithful h
  rw [hpending.length_eq, List.length_cons]

variable (overrides) in
/-- Every rendering has ended, or a step is possible. -/
theorem exists_step (p : Pool α) :
    (∃ results cache, p = finished results cache) ∨ ∃ p', Step overrides p p' := by
  obtain ⟨units, cache⟩ := p
  -- The first rendering that has not ended waits for an answer.
  suffices hgen : (∃ results : List (Except CompileError α), units = results.map .done) ∨
      ∃ before name next after, units = before ++ .ask name next :: after by
    rcases hgen with ⟨results, rfl⟩ | ⟨before, name, next, after, rfl⟩
    · exact .inl ⟨results, cache, rfl⟩
    · exact .inr ⟨_, .answer before after name next cache⟩
  induction units with
  | nil => exact .inl ⟨[], rfl⟩
  | cons unit rest ih =>
    cases unit with
    | ask name next => exact .inr ⟨[], name, next, rest, rfl⟩
    | done result =>
      rcases ih with ⟨results, rfl⟩ | ⟨before, name, next, after, rfl⟩
      · exact .inl ⟨result :: results, rfl⟩
      · exact .inr ⟨.done result :: before, name, next, after, rfl⟩

/-- From everywhere, a run can be brought to its end. -/
theorem exists_finished (p : Pool α) (hfaithful : Faithful overrides p.cache) :
    ∃ results cache, Reaches overrides p (finished results cache) := by
  -- Every step leaves one request fewer.
  induction hn : (p.pending overrides).length generalizing p with
  | zero =>
    rcases exists_step overrides p with ⟨results, cache, rfl⟩ | ⟨p', hstep⟩
    · exact ⟨results, cache, .refl⟩
    · have hlength := length_pending_of_step hfaithful hstep
      omega
  | succ n ih =>
    rcases exists_step overrides p with ⟨results, cache, rfl⟩ | ⟨p', hstep⟩
    · exact ⟨results, cache, .refl⟩
    · have hlength := length_pending_of_step hfaithful hstep
      obtain ⟨results, cache, hreaches⟩ := ih p' (keeps_of_step hfaithful hstep).faithful (by omega)
      exact ⟨results, cache, .head hstep hreaches⟩

/-! ### One rendering after another -/

variable (overrides) in
/-- A rendering that is given all its answers at once leads to what its run says, whatever stands
beside it. -/
theorem reaches_run (before after : List (Rendering α)) (r : Rendering α)
    (cache : TemplateCache) :
    Reaches overrides ⟨before ++ r :: after, cache⟩
      ⟨before ++ .done (r.run overrides cache).1 :: after, (r.run overrides cache).2⟩ := by
  induction r generalizing cache with
  | done result => exact .refl
  | ask name next ih =>
    have hstep : Step overrides ⟨before ++ .ask name next :: after, cache⟩ _ :=
      .answer before after name next cache
    -- The rest of the run goes on from the cache that the answer leaves.
    refine .head hstep ?_
    rw [run]
    cases cache.get overrides name with
    | mk answer cache' =>
      cases answer with
      | ok t => exact ih t cache'
      | error e => exact .refl

/-- Rendering one unit after another is an interleaving. -/
theorem reaches_runEach (units : List (Rendering α)) (cache : TemplateCache) :
    Reaches overrides ⟨units, cache⟩
      (finished (runEach overrides units cache).1 (runEach overrides units cache).2) := by
  -- The renderings that have ended stay in front.
  suffices hgen : ∀ done : List (Except CompileError α),
      Reaches overrides ⟨done.map .done ++ units, cache⟩
        (finished (done ++ (runEach overrides units cache).1)
          (runEach overrides units cache).2) from hgen []
  induction units generalizing cache with
  | nil =>
    intro done
    rw [List.append_nil, runEach, List.append_nil]
    exact .refl
  | cons r rest ih =>
    intro done
    have hfirst := reaches_run overrides (done.map .done) rest r cache
    have hrest := ih (r.run overrides cache).2 (done ++ [(r.run overrides cache).1])
    rw [List.map_append, List.append_assoc, List.append_assoc] at hrest
    exact hfirst.trans hrest

end Pool

end Grounder
