import Grounder.Proofs.Renumbering
import Grounder.Proofs.Support.Lists

/-!
# `Grounder.Proofs.NumberingSessions`: requests to a numbering in use

A numbering in use is asked to register variables one by one, or to give way to the numbering that a
listing shows. A request may be refused, and then the old numbering stays in use. The requests alone
say which variables have been given so far (`given`), with or without repetitions. The induction
over a session shows that the numbering has each of them once, in the order in which they were first
given (`vars_after`).

The handle of a variable is its position, and so the two directions cannot get apart here. A program
that looks up both of them quickly holds two tables, an array of the variables and a hash map of the
handles, and writes them one after the other (`HandleTables`). A listing is read into new tables,
line by line, until a line is refused. What keeps two tables inverse to each other is the relation
`Shows`: both say what one numbering says. One line keeps it, and so do the lines of a listing
(`Shows.readLines`), one request (`Shows.next`) and a session (`shows_after`).

`handles_stay_bijective` collects what holds after all requests, whether they were refused or not.
-/

set_option autoImplicit false

namespace Grounder

namespace VariableNumbering

open Proofs.Support

/-! ### Sessions -/

/-- What a numbering in use can be asked for. -/
inductive Request where
  /-- A handle for one more variable. -/
  | register (v : StateVariable)
  /-- The numbering of a listing in place of the one in use. -/
  | load (listing : String)

/-- Why a request is refused. -/
inductive Refusal where
  | register (e : GroundingError)
  | load (e : ListingError)

/-- The numbering that a request leads to, unless it is refused. -/
def answer (numbering : VariableNumbering) : Request → Except Refusal VariableNumbering
  | .register v => (numbering.register v).mapError .register
  | .load text => (ofListing text).mapError .load

/-- The numbering in use after a request. The old one stays in use if the request is refused. -/
def next (numbering : VariableNumbering) (r : Request) : VariableNumbering :=
  match numbering.answer r with
  | .ok numbering' => numbering'
  | .error _ => numbering

/-- The numbering in use after requests, the first of which finds an empty one. -/
def after (requests : List Request) : VariableNumbering := requests.foldl next empty

/-- The variables that have been given after one more request. A listing that can be read replaces
all others. -/
def give (vs : List StateVariable) : Request → List StateVariable
  | .register v => vs ++ [v]
  | .load text =>
    match ofListing text with
    | .ok numbering => numbering.vars
    | .error _ => vs

/-- The variables that requests have given, in order and with repetitions. -/
def given (requests : List Request) : List StateVariable := requests.foldl give []

variable {numbering : VariableNumbering} {v : StateVariable}

/-- A variable has a handle if it is one of those that are numbered. -/
theorem isSome_handle?_iff : (numbering.handle? v).isSome = true ↔ v ∈ numbering.vars := by
  simp [VariableNumbering.handle?]

/-- A variable that has a handle is refused, and any other one comes last. -/
theorem register_cases (numbering : VariableNumbering) (v : StateVariable) :
    (v ∈ numbering.vars ∧ numbering.register v = .error (.duplicateRegistration v)) ∨
      v ∉ numbering.vars ∧ ∃ numbering', numbering.register v = .ok numbering' ∧
        numbering'.vars = numbering.vars ++ [v] := by
  by_cases hv : v ∈ numbering.vars
  · exact .inl ⟨hv, dif_pos hv⟩
  · exact .inr ⟨hv, _, dif_neg hv, rfl⟩

/-- One more variable gets the next handle, and the others keep theirs. -/
theorem handle?_concat {numbering' : VariableNumbering}
    (hvars : numbering'.vars = numbering.vars ++ [v]) (w : StateVariable) :
    numbering'.handle? w = if v = w then some numbering.size else numbering.handle? w := by
  have hv : v ∉ numbering.vars := not_mem_of_nodup_concat (hvars ▸ numbering'.nodup)
  rw [VariableNumbering.handle?, hvars, idxOf?_concat hv]
  rfl

/-- A new variable is appended, and one that has a handle changes nothing. -/
theorem vars_next_register (numbering : VariableNumbering) (v : StateVariable) :
    (numbering.next (.register v)).vars =
      if v ∈ numbering.vars then numbering.vars else numbering.vars ++ [v] := by
  rcases register_cases numbering v with ⟨hv, herror⟩ | ⟨hv, numbering', hok, hvars⟩
  · simp [next, answer, herror, Except.mapError, hv]
  · simp [next, answer, hok, Except.mapError, hv, hvars]

/-- A request that is answered leads to the answer. -/
theorem next_of_ok {r : Request} {numbering' : VariableNumbering}
    (h : numbering.answer r = .ok numbering') : numbering.next r = numbering' := by
  rw [next, h]

/-- A request that is refused changes nothing. -/
theorem next_of_error {r : Request} {e : Refusal} (h : numbering.answer r = .error e) :
    numbering.next r = numbering := by
  rw [next, h]

/-- The last request finds the numbering that the requests before it left. -/
theorem after_concat (requests : List Request) (r : Request) :
    after (requests ++ [r]) = (after requests).next r := by
  simp [after]

/-- What the last request gives comes after what the requests before it gave. -/
theorem given_concat (requests : List Request) (r : Request) :
    given (requests ++ [r]) = give (given requests) r := by
  simp [given]

/-- The numbering in use has every variable that was given, once and in the order in which they were
first given. -/
theorem vars_after (requests : List Request) :
    (after requests).vars = (given requests).eraseDups := by
  induction requests using List.reverseRecOn with
  | nil => rfl
  | append_singleton requests r ih =>
    rw [after_concat, given_concat]
    cases r with
    | register v => simp only [vars_next_register, give, eraseDups_concat, ih, List.mem_eraseDups]
    | load text =>
      cases htext : ofListing text with
      | ok numbering =>
        -- The variables of a numbering are distinct already.
        simp [next, answer, htext, Except.mapError, give, eraseDups_of_nodup numbering.nodup]
      | error e => simp [next, answer, htext, Except.mapError, give, ih]

/-! ### Two tables -/

/-- The two directions of a numbering, each in a table of its own. -/
structure HandleTables [Hashable StateVariable] where
  vars : Array StateVariable
  handles : Std.HashMap StateVariable Nat

namespace HandleTables

variable [Hashable StateVariable]

def empty : HandleTables := ⟨#[], ∅⟩

/-- The handle of one more variable, or the error that it has one, and the tables after that. -/
def register (tables : HandleTables) (v : StateVariable) :
    Except GroundingError Nat × HandleTables :=
  if tables.handles.contains v then (.error (.duplicateRegistration v), tables)
  else
    let handle := tables.vars.size
    (.ok handle, ⟨tables.vars.push v, tables.handles.insert v handle⟩)

/-- The tables with the variables that lines list, where the first line has the number `number`. The
first line that is refused ends the reading. -/
def readLines (tables : HandleTables) (number : Nat) :
    List String → Except ListingError HandleTables
  | [] => .ok tables
  | line :: rest =>
    if Text.isBlankText line then readLines tables (number + 1) rest
    else
      match StateVariable.parse line with
      | .error e => .error ⟨number, .parse e⟩
      | .ok v =>
        match tables.register v with
        | (.error e, _) => .error ⟨number, .register e⟩
        | (.ok _, tables') => readLines tables' (number + 1) rest

/-- The tables that a listing fills. -/
def ofListing (text : String) : Except ListingError HandleTables :=
  empty.readLines 1 (Text.lines text)

/-- The tables in use after a request. The old ones stay in use if a listing is refused. -/
def next (tables : HandleTables) : Request → HandleTables
  | .register v => (tables.register v).2
  | .load text =>
    match ofListing text with
    | .ok tables' => tables'
    | .error _ => tables

/-- The tables in use after requests, the first of which finds empty ones. -/
def after (requests : List Request) : HandleTables := requests.foldl next empty

/-- Both tables say what a numbering says. -/
structure Shows (tables : HandleTables) (numbering : VariableNumbering) : Prop where
  vars : tables.vars.toList = numbering.vars
  handles : ∀ v, tables.handles[v]? = numbering.handle? v

variable {tables : HandleTables}

/-- Empty tables show the empty numbering. -/
theorem shows_empty : empty.Shows VariableNumbering.empty := by
  refine ⟨rfl, fun v => ?_⟩
  simp [empty, VariableNumbering.handle?, VariableNumbering.empty]

/-- The map has the variables that are numbered. -/
theorem Shows.contains_iff (h : tables.Shows numbering) :
    tables.handles.contains v = true ↔ v ∈ numbering.vars :=
  contains_positions_iff h.handles

/-- The tables are inverse to each other. -/
theorem Shows.inverse (h : tables.Shows numbering) (handle : Nat) (v : StateVariable) :
    tables.handles[v]? = some handle ↔ tables.vars[handle]? = some v := by
  rw [h.handles, handle?_eq_some, variableAt?, ← h.vars, Array.getElem?_toList]

/-- A variable that the map has is refused, and the tables stay as they are. -/
theorem Shows.register_of_mem (h : tables.Shows numbering) (hv : v ∈ numbering.vars) :
    tables.register v = (.error (.duplicateRegistration v), tables) := by
  simp [register, h.contains_iff.2 hv]

/-- A new variable gets the next handle, which is written to both tables. -/
theorem Shows.register_of_not_mem (h : tables.Shows numbering) (hv : v ∉ numbering.vars) :
    tables.register v = (.ok numbering.size,
      ⟨tables.vars.push v, tables.handles.insert v numbering.size⟩) := by
  have hsize : tables.vars.size = numbering.size := by
    rw [VariableNumbering.size, ← h.vars, Array.length_toList]
  have hnew : tables.handles.contains v = false := by simpa using mt h.contains_iff.1 hv
  simp [register, hnew, hsize]

/-- Tables with the next handle in both show a numbering with one more variable. -/
theorem Shows.append (h : tables.Shows numbering) {numbering' : VariableNumbering}
    (hvars : numbering'.vars = numbering.vars ++ [v]) :
    Shows ⟨tables.vars.push v, tables.handles.insert v numbering.size⟩ numbering' := by
  have hv : v ∉ numbering.vars := not_mem_of_nodup_concat (hvars ▸ numbering'.nodup)
  refine ⟨?_, fun w => ?_⟩
  · simp [h.vars, hvars]
  · rw [VariableNumbering.handle?, hvars]
    exact getElem?_insert_positions h.handles hv w

/-- The tables are inverse to each other, and register a variable as the numbering does. -/
structure InStep (tables : HandleTables) (numbering : VariableNumbering) : Prop extends
    tables.Shows numbering where
  inverse : ∀ (handle : Nat) (v : StateVariable),
    tables.handles[v]? = some handle ↔ tables.vars[handle]? = some v
  refused : ∀ v ∈ numbering.vars,
    tables.register v = (.error (.duplicateRegistration v), tables)
  registered : ∀ v ∉ numbering.vars, (tables.register v).1 = .ok numbering.size

/-- Tables that show a numbering are in step with it. -/
theorem Shows.inStep (h : tables.Shows numbering) : tables.InStep numbering := by
  refine ⟨h, h.inverse, fun v => h.register_of_mem, fun v hv => ?_⟩
  rw [h.register_of_not_mem hv]

/-- One more variable keeps the tables in step with the numbering. -/
theorem Shows.register (h : tables.Shows numbering) (v : StateVariable) :
    (tables.register v).2.Shows (numbering.next (.register v)) := by
  rcases register_cases numbering v with ⟨hv, herror⟩ | ⟨hv, numbering', hok, hvars⟩
  · rw [h.register_of_mem hv, next_of_error (r := .register v) (by rw [answer, herror]; rfl)]
    exact h
  · rw [next_of_ok (r := .register v) (by rw [answer, hok]; rfl)]
    rw [h.register_of_not_mem hv]
    exact h.append hvars

/-- The lines of a listing fill the tables as they fill the numbering, or are refused alike. -/
theorem Shows.readLines (h : tables.Shows numbering) (number : Nat) (lines : List String) :
    GoesAs (fun numbering' tables' => tables'.Shows numbering') (fun _ => False)
      (numbering.readLines number lines) (tables.readLines number lines) := by
  induction lines generalizing tables numbering number with
  | nil => exact .ok h
  | cons line rest ih =>
    rw [VariableNumbering.readLines, HandleTables.readLines]
    by_cases hblank : Text.isBlankText line = true
    · rw [if_pos hblank, if_pos hblank]
      exact ih h (number + 1)
    · rw [if_neg hblank, if_neg hblank]
      cases StateVariable.parse line with
      | error e => exact .same _
      | ok v =>
        -- The map refuses exactly the variables that the numbering refuses.
        rcases register_cases numbering v with ⟨hv, herror⟩ | ⟨hv, numbering', hok, hvars⟩
        · simp only [herror, h.register_of_mem hv]
          exact .same _
        · simp only [hok, h.register_of_not_mem hv]
          exact ih (h.append hvars) (number + 1)

/-- A listing fills the tables as it fills a numbering, or is refused alike. -/
theorem ofListing_goesAs (text : String) :
    GoesAs (fun numbering' tables' => tables'.Shows numbering') (fun _ => False)
      (VariableNumbering.ofListing text) (ofListing text) :=
  shows_empty.readLines 1 (Text.lines text)

/-- One request keeps the tables in step with the numbering. -/
theorem Shows.next (h : tables.Shows numbering) (r : Request) :
    (tables.next r).Shows (numbering.next r) := by
  cases r with
  | register v => exact h.register v
  | load text =>
    have hgoes := ofListing_goesAs text
    cases htext : VariableNumbering.ofListing text with
    | ok numbering' =>
      rw [htext] at hgoes
      obtain ⟨tables', htables, hshows⟩ := hgoes.of_ok
      rw [HandleTables.next, htables, next_of_ok (r := .load text) (by rw [answer, htext]; rfl)]
      exact hshows
    | error e =>
      rw [htext] at hgoes
      have htables : ofListing text = .error e := hgoes.of_error.resolve_right id
      rw [HandleTables.next, htables,
        next_of_error (r := .load text) (by rw [answer, htext]; rfl)]
      exact h

/-- All requests keep the tables in step with the numbering. -/
theorem shows_after (requests : List Request) :
    (after requests).Shows (VariableNumbering.after requests) := by
  induction requests using List.reverseRecOn with
  | nil => exact shows_empty
  | append_singleton requests r ih =>
    have hconcat : after (requests ++ [r]) = (after requests).next r := by simp [after]
    rw [hconcat, after_concat]
    exact ih.next r

end HandleTables

/-! ### After all requests -/

/-- The handles of a numbering and the variables that it was given belong together. -/
structure IsBijection (numbering : VariableNumbering) (given : List StateVariable) : Prop where
  /-- The handles are the numbers below the size. -/
  dense : ∀ handle, (∃ v, numbering.handle? v = some handle) ↔ handle < numbering.size
  /-- A variable that was given is found under its handle. -/
  variable_of_handle : ∀ v ∈ given, ∃ handle, numbering.handle? v = some handle ∧
    numbering.variableAt? handle = some v
  /-- No other variable has a handle. -/
  handle_of_not_given : ∀ v ∉ given, numbering.handle? v = none
  /-- The variable that is found under a handle has this handle. -/
  handle_of_variable : ∀ handle < numbering.size, ∃ v,
    numbering.variableAt? handle = some v ∧ numbering.handle? v = some handle
  /-- No variable is found under any other number. -/
  variable_of_not_handle : ∀ handle, numbering.size ≤ handle →
    numbering.variableAt? handle = none
  /-- Handles follow the order in which the variables were first given. -/
  order : ∀ handle, numbering.variableAt? handle = given.eraseDups[handle]?

/-- What becomes of a numbering that is asked to register a variable. -/
structure Appends (numbering : VariableNumbering) (v : StateVariable) : Prop where
  /-- The request is refused exactly if the variable has a handle. -/
  refused_iff : (∃ e, numbering.answer (.register v) = .error e) ↔
    ∃ handle, numbering.handle? v = some handle
  /-- The error is that it has one, and nothing changes. -/
  of_refused : ∀ e, numbering.answer (.register v) = .error e →
    e = .register (.duplicateRegistration v) ∧ numbering.next (.register v) = numbering
  /-- Otherwise the variable gets the next handle, and the other ones keep theirs. -/
  of_new : ∀ numbering', numbering.answer (.register v) = .ok numbering' →
    numbering.next (.register v) = numbering' ∧ numbering'.size = numbering.size + 1 ∧
    numbering'.handle? v = some numbering.size ∧
    ∀ w ≠ v, numbering'.handle? w = numbering.handle? w

/-- A numbering with the variables that were given, once each, has a handle for each of them. -/
theorem isBijection_of_vars {given : List StateVariable} (h : numbering.vars = given.eraseDups) :
    numbering.IsBijection given where
  dense handle := by
    constructor
    · rintro ⟨v, hv⟩
      exact lt_size_of_handle? hv
    · intro hlt
      obtain ⟨v, -, hv⟩ := exists_variableAt? hlt
      exact ⟨v, hv⟩
  variable_of_handle v hv := by
    have hmem : v ∈ numbering.vars := by rwa [h, List.mem_eraseDups]
    obtain ⟨handle, hhandle⟩ := Option.isSome_iff_exists.1 (isSome_handle?_iff.2 hmem)
    exact ⟨handle, hhandle, handle?_eq_some.1 hhandle⟩
  handle_of_not_given v hv := by
    have hmem : v ∉ numbering.vars := by rwa [h, List.mem_eraseDups]
    simpa [VariableNumbering.handle?] using hmem
  handle_of_variable handle hlt := exists_variableAt? hlt
  variable_of_not_handle handle hle := List.getElem?_eq_none hle
  order handle := by rw [variableAt?, h]

/-- A variable that has a handle is refused, and any other one is appended. -/
theorem appends (numbering : VariableNumbering) (v : StateVariable) : numbering.Appends v := by
  have hhandle : (∃ handle, numbering.handle? v = some handle) ↔ v ∈ numbering.vars := by
    rw [← isSome_handle?_iff, Option.isSome_iff_exists]
  rcases register_cases numbering v with ⟨hv, herror⟩ | ⟨hv, numbering', hok, hvars⟩
  · have hanswer : numbering.answer (.register v)
        = .error (.register (.duplicateRegistration v)) := by rw [answer, herror]; rfl
    refine ⟨iff_of_true ⟨_, hanswer⟩ (hhandle.2 hv), fun e he => ?_, fun numbering' h => ?_⟩
    · rw [hanswer] at he
      exact ⟨(Except.error.inj he).symm, next_of_error hanswer⟩
    · rw [hanswer] at h
      cases h
  · have hanswer : numbering.answer (.register v) = .ok numbering' := by rw [answer, hok]; rfl
    refine ⟨iff_of_false ?_ (mt hhandle.1 hv), fun e he => ?_, fun numbering'' h => ?_⟩
    · rintro ⟨e, he⟩
      rw [hanswer] at he
      cases he
    · rw [hanswer] at he
      cases he
    · rw [hanswer] at h
      obtain rfl := Except.ok.inj h
      refine ⟨next_of_ok hanswer, ?_, ?_, fun w hw => ?_⟩
      · simp [VariableNumbering.size, hvars]
      · rw [handle?_concat hvars, if_pos rfl]
      · rw [handle?_concat hvars, if_neg (Ne.symm hw)]

/-- After all requests, whether they were refused or not, the handles and the variables that were
given belong together. One more variable is appended or refused, and a request that is refused
changes nothing. Two tables, each written on its own, are in step with the numbering and inverse to
each other. -/
theorem handles_stay_bijective [Hashable StateVariable] (requests : List Request) :
    (after requests).IsBijection (given requests) ∧
    (∀ v, (after requests).Appends v) ∧
    (∀ r e, (after requests).answer r = .error e → after (requests ++ [r]) = after requests) ∧
    (HandleTables.after requests).InStep (after requests) := by
  refine ⟨isBijection_of_vars (vars_after requests), appends (after requests), fun r e h => ?_,
    (HandleTables.shows_after requests).inStep⟩
  rw [after_concat, next_of_error h]

/-- The second request and the one for a line without a parenthesis are refused. The listing takes
the place of what was registered before. -/
example : (after [.register ⟨"on", ["a"]⟩, .register ⟨"on", ["a"]⟩, .load "clear(a)\nclear(b)\n",
    .load "clear", .register ⟨"on", ["a"]⟩]).vars
      = [⟨"clear", ["a"]⟩, ⟨"clear", ["b"]⟩, ⟨"on", ["a"]⟩] := by
  decide +kernel

end VariableNumbering

end Grounder
