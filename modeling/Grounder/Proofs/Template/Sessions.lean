import Grounder.Proofs.Support.Except
import Grounder.Proofs.Template.Requests
import Grounder.Template.Directory
import Mathlib.Data.List.Induction

/-!
# `Grounder.Proofs.Template.Sessions`: requests while the files change

Override files may be written and deleted at any time, and a cache looks at them only when it is
asked for a template that it has not found before. A session is a run of requests to one cache with
any changes of the files in between.

`found_stays` says what a request in a session does. If an earlier request for the same name had a
template for its answer, the answer is this template once more, and neither the cache nor its count
of reads changes. Otherwise the answer is that of a load from the files as they are at that moment
(`LoadsAfresh`), and a failure leaves all entries as they were.

The induction over a session needs one fact only: the cache holds a template exactly if a request
was answered with it (`find?_after_iff`).
-/

set_option autoImplicit false

namespace Grounder.Template

open Proofs.Support

/-! ### Loading from files -/

/-- The overrides that the files hold at a moment, if there is a directory for them. -/
def overridesIn (dir : Option String) (files : FileTree) : Overrides := fun name =>
  ((readOverride dir name : StateM FileTree OverrideFile).run files).1

/-- There is no override file for a template. -/
def HasNoOverride (dir : Option String) (files : FileTree) (name : String) : Prop :=
  ∀ d, dir = some d → files.isFile (overridePath d name) = false

/-- What a load from the files gives, and how many of them it reads. -/
inductive LoadsAfresh (dir : Option String) (files : FileTree) (name : String) :
    Except CompileError Template → Nat → Prop where
  /-- A file in the directory is read, whether its text is a template or not. -/
  | override {d source : String} :
    dir = some d → files.isFile (overridePath d name) = true →
    files.readText? (overridePath d name) = some source →
    LoadsAfresh dir files name (Template.parse name source) 1
  /-- A file that holds no text cannot be read, and does not count. -/
  | unreadable {d : String} :
    dir = some d → files.isFile (overridePath d name) = true →
    files.readText? (overridePath d name) = none →
    LoadsAfresh dir files name (.error (.unreadableTemplate name)) 0
  /-- Without a file, the template is the built-in one. -/
  | builtin {source : String} :
    HasNoOverride dir files name → builtin? name = some source →
    LoadsAfresh dir files name (Template.parse name source) 0
  /-- Without a file and a built-in template, there is none. -/
  | unknown :
    HasNoOverride dir files name → builtin? name = none →
    LoadsAfresh dir files name (.error (.unknownTemplate name)) 0

variable {dir : Option String} {files : FileTree} {name : String}

/-- The override of a template in a directory. -/
theorem overridesIn_some (d : String) (files : FileTree) (name : String) :
    overridesIn (some d) files name =
      if files.isFile (overridePath d name) then
        match files.readText? (overridePath d name) with
        | some source => .text source
        | none => .unreadable
      else .absent := by
  have hisFile : (FileStore.isFile (overridePath d name) : StateM FileTree Bool).run files
      = (files.isFile (overridePath d name), files) := rfl
  have hreadText : (FileStore.readText? (overridePath d name) :
      StateM FileTree (Option String)).run files
        = (files.readText? (overridePath d name), files) := rfl
  by_cases hfile : files.isFile (overridePath d name) = true
  · rw [if_pos hfile, overridesIn, readOverride, StateT.run_bind, hisFile, hfile]
    -- There is a file, so its text is asked for.
    show ((FileStore.readText? (overridePath d name) >>= _ : StateM FileTree OverrideFile).run
      files).1 = _
    rw [StateT.run_bind, hreadText]
    cases files.readText? (overridePath d name) <;> rfl
  · rw [if_neg hfile, overridesIn, readOverride, StateT.run_bind, hisFile,
      Bool.eq_false_iff.2 hfile]
    rfl

/-- Without a directory or a file in it, nothing overrides a template. -/
theorem overridesIn_eq_absent (h : HasNoOverride dir files name) :
    overridesIn dir files name = .absent := by
  cases dir with
  | none => rfl
  | some d =>
    rw [overridesIn_some, h d rfl]
    rfl

/-- A load with the overrides of the moment is a load from the files. -/
theorem loadsAfresh_load (dir : Option String) (files : FileTree) (name : String) :
    LoadsAfresh dir files name (TemplateCache.load (overridesIn dir files) name)
      (TemplateCache.readsToLoad (overridesIn dir files) name) := by
  by_cases hoverride : HasNoOverride dir files name
  · have habsent := overridesIn_eq_absent hoverride
    simp only [TemplateCache.load, TemplateCache.readsToLoad, habsent, TemplateCache.loadBuiltin]
    cases hbuiltin : builtin? name with
    | some source => exact .builtin hoverride hbuiltin
    | none => exact .unknown hoverride hbuiltin
  · -- There is a directory with a file for this template.
    simp only [HasNoOverride, not_forall, Bool.not_eq_false] at hoverride
    obtain ⟨d, rfl, hfile⟩ := hoverride
    have hfound := overridesIn_some d files name
    rw [if_pos hfile] at hfound
    cases htext : files.readText? (overridePath d name) with
    | some source =>
      rw [htext] at hfound
      simp only [TemplateCache.load, TemplateCache.readsToLoad, hfound]
      exact .override rfl hfile htext
    | none =>
      rw [htext] at hfound
      simp only [TemplateCache.load, TemplateCache.readsToLoad, hfound]
      exact .unreadable rfl hfile htext

/-! ### Sessions -/

/-- The files and the cache at a moment of a session. -/
structure Session where
  files : FileTree
  cache : TemplateCache

/-- What can happen in a session. -/
inductive SessionEvent where
  /-- The files change in any way, such as that some are written or deleted. -/
  | edit (change : FileTree → FileTree)
  /-- A template is asked for. -/
  | get (name : String)

namespace Session

/-- The answer to a request. -/
def answer (dir : Option String) (s : Session) (name : String) : Except CompileError Template :=
  (s.cache.get (overridesIn dir s.files) name).1

/-- The session after an event. -/
def next (dir : Option String) (s : Session) : SessionEvent → Session
  | .edit change => { s with files := change s.files }
  | .get name => { s with cache := (s.cache.get (overridesIn dir s.files) name).2 }

/-- The session after events, which begins with an empty cache. -/
def after (dir : Option String) (files : FileTree) (events : List SessionEvent) : Session :=
  events.foldl (next dir) ⟨files, .empty⟩

/-- One of the requests among the events was answered with a template. -/
def Answered (dir : Option String) (files : FileTree) (events : List SessionEvent) (name : String)
    (t : Template) : Prop :=
  ∃ before rest, events = before ++ .get name :: rest ∧
    (after dir files before).answer dir name = .ok t

variable {events : List SessionEvent} {s : Session} {t : Template}

/-- The last event happens to what the events before it left. -/
theorem after_concat (dir : Option String) (files : FileTree) (events : List SessionEvent)
    (e : SessionEvent) : after dir files (events ++ [e]) = (after dir files events).next dir e := by
  rw [after, List.foldl_append]
  rfl

/-- A template that the cache holds is the answer, and nothing changes. -/
theorem next_of_find?_eq_some (h : s.cache.find? name = some t) :
    s.answer dir name = .ok t ∧ s.next dir (.get name) = s := by
  rw [answer, next, TemplateCache.get_of_find?_eq_some h]
  exact ⟨rfl, rfl⟩

/-- What the cache does not hold is loaded from the files, and kept if this succeeds. -/
theorem next_of_find?_eq_none (h : s.cache.find? name = none) :
    ∃ result reads, LoadsAfresh dir s.files name result reads ∧ s.answer dir name = result ∧
      (s.next dir (.get name)).cache.diskReads = s.cache.diskReads + reads ∧
      (s.next dir (.get name)).cache.entries = match result with
        | .ok t => (name, t) :: s.cache.entries
        | .error _ => s.cache.entries := by
  refine ⟨_, _, loadsAfresh_load dir s.files name, ?_⟩
  rw [answer, next]
  cases hload : TemplateCache.load (overridesIn dir s.files) name with
  | ok t =>
    rw [TemplateCache.get_of_load_eq_ok h hload]
    exact ⟨rfl, rfl, rfl⟩
  | error e =>
    rw [TemplateCache.get_of_load_eq_error h hload]
    exact ⟨rfl, rfl, rfl⟩

/-- After a request, the cache holds the template that the request was answered with. -/
theorem find?_next_get (dir : Option String) (s : Session) (name : String) :
    (s.next dir (.get name)).cache.find? name = (s.answer dir name).toOption := by
  show (s.cache.get (overridesIn dir s.files) name).2.find? name = _
  rw [TemplateCache.find?_get, if_pos rfl]
  cases hfind : s.cache.find? name with
  | some t =>
    rw [(next_of_find?_eq_some hfind).1]
    rfl
  | none =>
    rw [answer, TemplateCache.get]
    simp only [hfind]
    cases TemplateCache.load (overridesIn dir s.files) name <;> rfl

/-- Other events leave a name alone. -/
theorem find?_next_of_ne {e : SessionEvent} (h : e ≠ .get name) :
    (s.next dir e).cache.find? name = s.cache.find? name := by
  cases e with
  | edit change => rfl
  | get other =>
    show (s.cache.get (overridesIn dir s.files) other).2.find? name = _
    rw [TemplateCache.find?_get, if_neg]
    rintro rfl
    exact h rfl

/-- The last event matters only if it is a request for the name. -/
theorem answered_concat_iff {e : SessionEvent} :
    Answered dir files (events ++ [e]) name t ↔
      Answered dir files events name t ∨
        e = .get name ∧ (after dir files events).answer dir name = .ok t := by
  constructor
  · rintro ⟨before, rest, heq, hanswer⟩
    cases rest using List.reverseRecOn with
    | nil =>
      obtain ⟨rfl, hlast⟩ := List.append_inj' heq rfl
      exact .inr ⟨List.singleton_inj.1 hlast, hanswer⟩
    | append_singleton rest last =>
      rw [← List.cons_append, ← List.append_assoc] at heq
      obtain ⟨rfl, -⟩ := List.append_inj' heq rfl
      exact .inl ⟨before, rest, rfl, hanswer⟩
  · rintro (⟨before, rest, rfl, hanswer⟩ | ⟨rfl, hanswer⟩)
    · exact ⟨before, rest ++ [e], by rw [List.append_assoc, List.cons_append], hanswer⟩
    · exact ⟨events, [], rfl, hanswer⟩

/-- The cache holds a template exactly if a request was answered with it. -/
theorem find?_after_iff :
    (after dir files events).cache.find? name = some t ↔ Answered dir files events name t := by
  induction events using List.reverseRecOn with
  | nil =>
    refine iff_of_false (by simp [after, TemplateCache.find?, TemplateCache.empty]) ?_
    rintro ⟨before, rest, heq, -⟩
    simp at heq
  | append_singleton events e ih =>
    rw [after_concat, answered_concat_iff, ← ih]
    by_cases he : e = .get name
    · subst he
      rw [find?_next_get]
      -- A template that was held before is the answer again.
      constructor
      · intro h
        cases hanswer : (after dir files events).answer dir name with
        | ok t' =>
          rw [hanswer] at h
          exact .inr ⟨rfl, congrArg Except.ok (Option.some.inj h)⟩
        | error e =>
          rw [hanswer] at h
          cases h
      · rintro (hfind | ⟨-, hanswer⟩)
        · rw [(next_of_find?_eq_some hfind).1]
          rfl
        · rw [hanswer]
          rfl
    · rw [find?_next_of_ne he]
      simp only [he, false_and, or_false]

/-- A request in a session, whatever happened before it. If an earlier request for this name was
answered with a template, so is this one, and nothing changes. Otherwise the template is loaded from
the files of that moment, and the cache changes by what was read and, if the load succeeds, by this
one entry. -/
theorem found_stays (dir : Option String) (files : FileTree) (before : List SessionEvent)
    (name : String) :
    let s := after dir files before
    (∀ t, Answered dir files before name t →
      s.answer dir name = .ok t ∧ s.next dir (.get name) = s) ∧
    ((∀ t, ¬ Answered dir files before name t) →
      ∃ result reads, LoadsAfresh dir s.files name result reads ∧ s.answer dir name = result ∧
        (s.next dir (.get name)).cache.diskReads = s.cache.diskReads + reads ∧
        (s.next dir (.get name)).cache.entries = match result with
          | .ok t => (name, t) :: s.cache.entries
          | .error _ => s.cache.entries) := by
  intro s
  constructor
  · intro t hanswered
    exact next_of_find?_eq_some (find?_after_iff.2 hanswered)
  · intro hnone
    refine next_of_find?_eq_none (Option.eq_none_iff_forall_ne_some.2 fun t ht => ?_)
    exact hnone t (find?_after_iff.1 ht)

/-- Two override files, of which one is a template. -/
def overriddenFiles : FileTree :=
  ⟨[], [(["tpl"], .directory), (["tpl", "term_value.tpl"], .file (.text "V $\x7bargs\x7d")),
    (["tpl", "effect.tpl"], .file (.text "$\x7b"))]⟩

/-- Both templates are asked for, and then the overrides are deleted. -/
def deletingEvents : List SessionEvent :=
  [.get "term_value", .get "effect", .edit (·.removeAll "tpl")]

/-- The deleted override of a term's value stays, and is not read again. That of effects was
malformed, so they get their built-in template now, for which no file is read. -/
theorem found_stays_deleted :
    ∃ s t t', s = after (some "tpl") overriddenFiles deletingEvents ∧
      s.answer (some "tpl") "term_value" = .ok t ∧ t.slots = ["args"] ∧
      s.next (some "tpl") (.get "term_value") = s ∧
      s.answer (some "tpl") "effect" = .ok t' ∧ Template.parse "effect" effectText = .ok t' ∧
      (s.next (some "tpl") (.get "effect")).cache.diskReads = s.cache.diskReads := by
  obtain ⟨t, ht⟩ := exists_eq_ok
    (x := (after (some "tpl") overriddenFiles []).answer (some "tpl") "term_value")
    (by decide +kernel)
  have hslots : t.slots = ["args"] := feature_eq ht (by decide +kernel)
  obtain ⟨t', ht'⟩ := exists_eq_ok (x := Template.parse "effect" effectText) (by decide +kernel)
  obtain ⟨hstays, -⟩ := found_stays (some "tpl") overriddenFiles deletingEvents "term_value"
  obtain ⟨-, hloads⟩ := found_stays (some "tpl") overriddenFiles deletingEvents "effect"
  obtain ⟨hanswer, hnext⟩ := hstays t ⟨[], _, rfl, ht⟩
  -- The malformed override was not remembered.
  have hnone : ∀ t, ¬ Answered (some "tpl") overriddenFiles deletingEvents "effect" t := by
    intro t hanswered
    have hempty : (after (some "tpl") overriddenFiles deletingEvents).cache.find? "effect" = none :=
      by decide +kernel
    rw [find?_after_iff.2 hanswered] at hempty
    cases hempty
  obtain ⟨result, reads, hafresh, hresult, hreads, -⟩ := hloads hnone
  refine ⟨_, t, t', rfl, hanswer, hslots, hnext, ?_⟩
  cases hafresh with
  | override hdir hfile _ =>
    cases hdir
    exact absurd hfile (by decide +kernel)
  | unreadable hdir hfile _ =>
    cases hdir
    exact absurd hfile (by decide +kernel)
  | builtin _ hsource =>
    cases hsource
    exact ⟨hresult.trans ht', ht', hreads⟩
  | unknown _ hsource => cases hsource

end Session

end Grounder.Template
