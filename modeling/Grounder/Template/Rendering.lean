import Grounder.Template.Cache

/-!
# `Grounder.Template.Rendering`: renderings that wait for templates

A rendering asks for templates by name and goes on with what it is given, so it says nothing about
where templates come from or what else is rendered in between. It ends at its first error.
-/

set_option autoImplicit false

namespace Grounder

/-- A rendering that has ended, or one that waits for a template. -/
inductive Rendering (α : Type) where
  | done (result : Except CompileError α)
  | ask (name : String) (next : Template → Rendering α)

namespace Rendering

variable {α β : Type}

/-- The rendering that goes on with the result of another one. -/
def bind (r : Rendering α) (f : α → Rendering β) : Rendering β :=
  match r with
  | .done (.ok a) => f a
  | .done (.error e) => .done (.error e)
  | .ask name next => .ask name fun t => (next t).bind f

instance : Monad Rendering where
  pure a := .done (.ok a)
  bind := bind

/-- What grounding says about something, as part of a rendering. -/
def ofGround (result : Except GroundingError α) : Rendering α := .done (result.mapError .ground)

/-- The rendering that ends here. -/
def fail (e : CompileError) : Rendering α := .done (.error e)

/-- The template of that name, filled in. -/
def fill (name : String) (bindings : Template.Bindings) : Rendering String :=
  .ask name fun t => .done (t.render bindings)

/-- The result of a rendering whose templates come from a cache, and the cache after it. -/
def run (overrides : Overrides) :
    Rendering α → TemplateCache → Except CompileError α × TemplateCache
  | .done result, cache => (result, cache)
  | .ask name next, cache =>
    match cache.get overrides name with
    | (.ok t, cache') => (next t).run overrides cache'
    | (.error e, cache') => (.error e, cache')

/-- The results of several renderings, one after another, none of which stops the others. -/
def runEach (overrides : Overrides) :
    List (Rendering α) → TemplateCache → List (Except CompileError α) × TemplateCache
  | [], cache => ([], cache)
  | r :: rest, cache =>
    let (result, cache') := r.run overrides cache
    let (results, cache'') := runEach overrides rest cache'
    (result :: results, cache'')

end Rendering

end Grounder
