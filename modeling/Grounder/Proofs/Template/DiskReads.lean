import Grounder.Proofs.Support.Lists
import Grounder.Proofs.Template.Requests
import Mathlib.Data.List.Induction

/-!
# `Grounder.Proofs.Template.DiskReads`: how often override files are read

A cache remembers a template that it found, so the file of a template is read for the first
request only. A file whose text is no template is not remembered, and every request for it reads
it again. `countsReads` counts the reads of any run of requests: one for each different name whose
file is a template, and one for each request whose file is malformed. Files that cannot be read
and templates that are built in do not count.

Hence no run of requests reads more files than it has different names if and only if no file is
malformed (`diskReads_le_distinct_iff`). `malformed_read_twice` shows a malformed file that is read
at each of two requests.
-/

set_option autoImplicit false

namespace Grounder.TemplateCache

open Grounder.Proofs.Support

variable {overrides : Overrides} {names : List String} {name : String}

/-! ### Files of the override directory -/

/-- The override of a template can be read, and its text is that of a template. -/
def isTemplate (overrides : Overrides) (name : String) : Bool :=
  match overrides name with
  | .text source => (Template.parse name source).isOk
  | _ => false

/-- The override of a template can be read, and its text is not that of a template. -/
def isMalformed (overrides : Overrides) (name : String) : Bool :=
  match overrides name with
  | .text source => !(Template.parse name source).isOk
  | _ => false

/-- A file is not a template and malformed at once. -/
theorem not_isTemplate_of_isMalformed (h : isMalformed overrides name = true) :
    isTemplate overrides name = false := by
  unfold isMalformed at h
  unfold isTemplate
  split at h
  · simpa only [Bool.not_eq_true'] using h
  · cases h

/-- A load reads a file if the file is a template or malformed. -/
theorem readsToLoad_eq (overrides : Overrides) (name : String) :
    readsToLoad overrides name
      = if isTemplate overrides name || isMalformed overrides name then 1 else 0 := by
  unfold readsToLoad isTemplate isMalformed
  cases overrides name with
  | absent => rfl
  | unreadable => rfl
  | text source => simp only [Bool.or_not_self, if_true]

/-- If the template of a name was asked for before, its file is read again if it is malformed. -/
theorem readsToLoad_again (overrides : Overrides) (name : String) :
    (if (load overrides name).toOption.isSome then 0 else readsToLoad overrides name)
      = if isMalformed overrides name then 1 else 0 := by
  unfold load readsToLoad isMalformed
  cases overrides name with
  | absent => exact ite_self 0
  | unreadable => rfl
  | text source =>
    have hok : (Template.parse name source).toOption.isSome = (Template.parse name source).isOk := by
      cases Template.parse name source <;> rfl
    by_cases hparse : (Template.parse name source).isOk = true
    · simp [hok, hparse]
    · simp [hok, hparse]

/-! ### One more request -/

/-- The last request finds the cache that the requests before it left. -/
theorem afterRequests_concat (overrides : Overrides) (names : List String) (name : String) :
    afterRequests overrides (names ++ [name])
      = ((afterRequests overrides names).get overrides name).2 := by
  rw [afterRequests, List.foldl_append]
  rfl

/-- A name that was not asked for is not found. -/
theorem find?_afterRequests_of_not_mem (h : name ∉ names) :
    (afterRequests overrides names).find? name = none := by
  induction names using List.reverseRecOn with
  | nil => rfl
  | append_singleton names other ih =>
    rw [List.mem_append, List.mem_singleton, not_or] at h
    rw [afterRequests_concat, find?_get, if_neg h.2, ih h.1]

/-- After a request, a template is found if it can be loaded. -/
theorem find?_afterRequests_of_mem (h : name ∈ names) :
    (afterRequests overrides names).find? name = (load overrides name).toOption := by
  induction names using List.reverseRecOn with
  | nil => cases h
  | append_singleton names other ih =>
    rw [afterRequests_concat, find?_get]
    by_cases hother : name = other
    · subst hother
      rw [if_pos rfl]
      -- The name may have been asked for before, and then the cache has the answer already.
      by_cases hmem : name ∈ names
      · rw [ih hmem, Option.or_self]
      · rw [find?_afterRequests_of_not_mem hmem, Option.none_or]
    · rw [if_neg hother]
      rw [List.mem_append, List.mem_singleton] at h
      exact ih (h.resolve_right hother)

/-- A request reads a file if the file is malformed, or if it is a template that was not asked for
before. -/
theorem diskReads_concat (overrides : Overrides) (names : List String) (name : String) :
    (afterRequests overrides (names ++ [name])).diskReads
      = (afterRequests overrides names).diskReads
        + if isMalformed overrides name ∨ isTemplate overrides name ∧ name ∉ names
          then 1 else 0 := by
  rw [afterRequests_concat, diskReads_get]
  congr 1
  by_cases hmem : name ∈ names
  · rw [find?_afterRequests_of_mem hmem, readsToLoad_again]
    simp [hmem]
  · rw [find?_afterRequests_of_not_mem hmem, readsToLoad_eq]
    simp [hmem, or_comm]

/-! ### All requests -/

/-- How many files a run of requests reads. -/
structure CountsReads (overrides : Overrides) (names : List String) : Prop where
  /-- One for each name whose file is a template, and one for each request for a malformed file. -/
  total : (afterRequests overrides names).diskReads
    = (names.eraseDups.filter (isTemplate overrides)).length
      + names.countP (isMalformed overrides)
  /-- A further request reads a file if the file is malformed, or if it is a template that was not
  asked for before. -/
  next : ∀ name, (afterRequests overrides (names ++ [name])).diskReads
    = (afterRequests overrides names).diskReads
      + if isMalformed overrides name ∨ isTemplate overrides name ∧ name ∉ names then 1 else 0
  /-- If no malformed file is asked for twice, every name has its file read at most once. -/
  bounded : (∀ name, isMalformed overrides name → names.count name ≤ 1) →
    (afterRequests overrides names).diskReads ≤ names.eraseDups.length

/-- Reads add up over a run of requests. -/
theorem diskReads_afterRequests (overrides : Overrides) (names : List String) :
    (afterRequests overrides names).diskReads
      = (names.eraseDups.filter (isTemplate overrides)).length
        + names.countP (isMalformed overrides) := by
  induction names using List.reverseRecOn with
  | nil => rfl
  | append_singleton names name ih =>
    rw [diskReads_concat, ih, eraseDups_concat, List.countP_append, List.countP_singleton]
    cases hmalformed : isMalformed overrides name with
    | true =>
      have htemplate := not_isTemplate_of_isMalformed hmalformed
      by_cases hmem : name ∈ names
      · simp [hmem]
        omega
      · simp [hmem, htemplate]
        omega
    | false =>
      by_cases hmem : name ∈ names
      · simp [hmem]
      · cases htemplate : isTemplate overrides name with
        | true => simp [hmem, htemplate]; omega
        | false => simp [hmem, htemplate]

/-- Each request adds to the reads at most what it adds to the different names. -/
theorem diskReads_le_distinct
    (h : ∀ name, isMalformed overrides name → names.count name ≤ 1) :
    (afterRequests overrides names).diskReads ≤ names.eraseDups.length := by
  induction names using List.reverseRecOn with
  | nil => exact Nat.le_refl 0
  | append_singleton names name ih =>
    have hbefore := ih fun other hother =>
      Nat.le_trans ((List.sublist_append_left names [name]).count_le other) (h other hother)
    rw [diskReads_concat, eraseDups_concat]
    by_cases hmem : name ∈ names
    · -- The name was asked for before, so its file is not malformed and is not read again.
      have hmalformed : ¬ isMalformed overrides name := by
        intro hbad
        have htwice := h name hbad
        have honce := List.count_pos_iff.2 hmem
        rw [List.count_append, List.count_singleton_self] at htwice
        omega
      rw [if_pos hmem, if_neg (by simp [hmalformed, hmem])]
      exact hbefore
    · rw [if_neg hmem, List.length_append, List.length_singleton]
      split <;> omega

/-- Every run of requests reads files as `CountsReads` says. -/
theorem countsReads (overrides : Overrides) (names : List String) :
    CountsReads overrides names where
  total := diskReads_afterRequests overrides names
  next := diskReads_concat overrides names
  bounded := diskReads_le_distinct

/-- No run of requests reads more files than it has different names if and only if no override is
malformed, and every run reads files as `CountsReads` says. -/
theorem diskReads_le_distinct_iff (overrides : Overrides) :
    ((∀ names, (afterRequests overrides names).diskReads ≤ names.eraseDups.length)
        ↔ ∀ name, ¬ isMalformed overrides name)
      ∧ ∀ names, CountsReads overrides names := by
  refine ⟨⟨fun h name hbad => ?_, fun h names => ?_⟩, countsReads overrides⟩
  · -- Two requests for one malformed file are two reads for one name.
    have htwice := h [name, name]
    rw [diskReads_afterRequests] at htwice
    simp [hbad, List.eraseDups_cons] at htwice
  · exact diskReads_le_distinct fun name hbad => absurd hbad (h name)

/-- A template whose slot is not closed is read at both of two requests. -/
theorem malformed_read_twice :
    let overrides : Overrides := fun name => if name = "effect" then .text "$\x7b" else .absent
    (afterRequests overrides ["effect", "effect"]).diskReads = 2
      ∧ ["effect", "effect"].eraseDups.length = 1 := by
  decide +kernel

end Grounder.TemplateCache
