import Grounder.Proofs.Template.Rendering
import Mathlib.Data.List.Perm.Basic

/-!
# `Grounder.Proofs.Template.Requests`: what requests leave in a cache

A cache changes by requests alone, so what a run of renderings leaves behind is known once the
requests are. `Rendering.requests` lists those of a rendering, and `run_snd` says that a run makes
just these.

The order of requests shows in the order of the entries and in nothing else. `Alike` relates
caches that answer every request alike and that have read as many files. Two requests can be
exchanged (`get_comm`), so requests in any order lead to caches that are alike
(`requestAll_perm`). This holds although a template that was not found is not remembered: it is
looked for at every request, and counts every time.
-/

set_option autoImplicit false

namespace Grounder

namespace TemplateCache

variable {overrides : Overrides} {cache cache' : TemplateCache}

/-! ### One request -/

/-- A request for a template that was found before changes nothing. -/
theorem get_of_find?_eq_some {name : String} {t : Template} (h : cache.find? name = some t) :
    cache.get overrides name = (.ok t, cache) := by
  simp only [get, h]

/-- A template that is found for the first time is remembered. -/
theorem get_of_load_eq_ok {name : String} {t : Template} (hfind : cache.find? name = none)
    (hload : load overrides name = .ok t) :
    cache.get overrides name
      = (.ok t, ⟨(name, t) :: cache.entries, cache.diskReads + readsToLoad overrides name⟩) := by
  simp only [get, hfind, hload]

/-- A template that is not found is not remembered, but the file may have been read. -/
theorem get_of_load_eq_error {name : String} {e : CompileError} (hfind : cache.find? name = none)
    (hload : load overrides name = .error e) :
    cache.get overrides name
      = (.error e, { cache with diskReads := cache.diskReads + readsToLoad overrides name }) := by
  simp only [get, hfind, hload]

/-- What a request remembers: the template of that name, if there is one, beside what was there. -/
theorem find?_get (name other : String) :
    (cache.get overrides name).2.find? other
      = if other = name then (cache.find? name).or (load overrides name).toOption
        else cache.find? other := by
  cases hfind : cache.find? name with
  | some t =>
    rw [get_of_find?_eq_some hfind]
    by_cases h : other = name
    · simp [h, hfind]
    · simp [h]
  | none =>
    cases hload : load overrides name with
    | ok t =>
      rw [get_of_load_eq_ok hfind hload]
      by_cases h : other = name
      · simp [find?, h, Except.toOption]
      · have hne : (other == name) = false := beq_false_of_ne h
        simp [find?, List.lookup_cons, hne, h]
    | error e =>
      rw [get_of_load_eq_error hfind hload]
      by_cases h : other = name
      · -- A failure is not remembered, and the name was not found before.
        subst h
        rw [if_pos rfl]
        exact hfind
      · rw [if_neg h]
        rfl

/-- A request reads files only for a template that was not found before. -/
theorem diskReads_get (name : String) :
    (cache.get overrides name).2.diskReads
      = cache.diskReads + if (cache.find? name).isSome then 0 else readsToLoad overrides name := by
  cases hfind : cache.find? name with
  | some t => rw [get_of_find?_eq_some hfind]; simp
  | none =>
    cases hload : load overrides name with
    | ok t => rw [get_of_load_eq_ok hfind hload]; simp
    | error e => rw [get_of_load_eq_error hfind hload]; simp

/-! ### Caches that are alike -/

/-- Caches that have found the same templates and read as many files. -/
structure Alike (cache cache' : TemplateCache) : Prop where
  find? : ∀ name, cache.find? name = cache'.find? name
  diskReads : cache.diskReads = cache'.diskReads

namespace Alike

theorem refl (cache : TemplateCache) : Alike cache cache := ⟨fun _ => rfl, rfl⟩

theorem symm (h : Alike cache cache') : Alike cache' cache :=
  ⟨fun name => (h.find? name).symm, h.diskReads.symm⟩

theorem trans {cache'' : TemplateCache} (h : Alike cache cache') (h' : Alike cache' cache'') :
    Alike cache cache'' :=
  ⟨fun name => (h.find? name).trans (h'.find? name), h.diskReads.trans h'.diskReads⟩

/-- A request to caches that are alike leaves them alike. -/
theorem get (h : Alike cache cache') (overrides : Overrides) (name : String) :
    Alike (cache.get overrides name).2 (cache'.get overrides name).2 := by
  refine ⟨fun other => ?_, ?_⟩
  · rw [find?_get, find?_get, h.find?, h.find?]
  · rw [diskReads_get, diskReads_get, h.find?, h.diskReads]

end Alike

/-- Two requests can be made in either order. -/
theorem get_comm (cache : TemplateCache) (overrides : Overrides) (name name' : String) :
    Alike ((cache.get overrides name).2.get overrides name').2
      ((cache.get overrides name').2.get overrides name).2 := by
  by_cases h : name = name'
  · subst h
    exact .refl _
  · have h' : name' ≠ name := fun heq => h heq.symm
    refine ⟨fun other => ?_, ?_⟩
    · -- Each request decides about its own name, and leaves the other one alone.
      simp only [find?_get, if_neg h, if_neg h']
      by_cases hother : other = name'
      · have hne : other ≠ name := fun heq => h (heq.symm.trans hother)
        rw [if_pos hother, if_neg hne, if_pos hother]
      · rw [if_neg hother, if_neg hother]
    · rw [diskReads_get, diskReads_get, find?_get, if_neg h', diskReads_get, diskReads_get,
        find?_get, if_neg h]
      omega

/-! ### Many requests -/

/-- The cache after requests, one after another. -/
def requestAll (overrides : Overrides) (cache : TemplateCache) (names : List String) :
    TemplateCache :=
  names.foldl (fun cache name => (cache.get overrides name).2) cache

/-- The first request comes before all others. -/
theorem requestAll_cons (name : String) (names : List String) :
    requestAll overrides cache (name :: names)
      = requestAll overrides (cache.get overrides name).2 names := rfl

/-- The same requests to caches that are alike leave them alike. -/
theorem Alike.requestAll (h : Alike cache cache') (overrides : Overrides) (names : List String) :
    Alike (requestAll overrides cache names) (requestAll overrides cache' names) := by
  induction names generalizing cache cache' with
  | nil => exact h
  | cons name names ih => exact ih (h.get overrides name)

/-- Requests in any order leave caches that are alike. -/
theorem requestAll_perm {names names' : List String} (h : names.Perm names') :
    Alike (requestAll overrides cache names) (requestAll overrides cache names') := by
  induction h generalizing cache with
  | nil => exact .refl cache
  | cons name _ ih => exact ih
  | swap name name' names =>
    -- Two neighbours are exchanged, and the requests after them find caches that are alike.
    exact (get_comm cache overrides name' name).requestAll overrides names
  | trans _ _ ih ih' => exact ih.trans ih'

end TemplateCache

namespace Rendering

open TemplateCache

variable {α : Type} {overrides : Overrides}

/-- The templates that a rendering asks for, in order, where each is loaded afresh. -/
def requests (overrides : Overrides) : Rendering α → List String
  | .done _ => []
  | .ask name next =>
    name :: match load overrides name with
      | .ok t => (next t).requests overrides
      | .error _ => []

/-- From a faithful cache, a run makes the requests of the rendering and no others. -/
theorem run_snd (r : Rendering α) {cache : TemplateCache} (h : Faithful overrides cache) :
    (r.run overrides cache).2 = requestAll overrides cache (r.requests overrides) := by
  induction r generalizing cache with
  | done result => rfl
  | ask name next ih =>
    have hfst := get_fst h name
    have hget := faithful_get h name
    rw [run, requests, requestAll_cons]
    -- The cache answers as a load afresh does, so both sides go on with the same template.
    cases hanswer : cache.get overrides name with
    | mk answer cache' =>
      rw [hanswer] at hfst hget
      cases answer with
      | ok t =>
        rw [← hfst]
        exact ih t hget
      | error e =>
        rw [← hfst]
        rfl

end Rendering

end Grounder
