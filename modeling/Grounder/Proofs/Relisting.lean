import Grounder.Proofs.VariableListing

/-!
# `Grounder.Proofs.Relisting`: listings that are read, written and read again

The listing of a numbering that was read shows every variable in its listing form. Reading it again
gives the same numbering, unless some line had nothing but white space between the parentheses. Such
a line is read as a variable with one empty argument, and its listing form is that of the variable
without arguments (`StateVariable.relisted`).

`ofListing_again` says what happens then. Such a variable comes back without its argument, under the
same handle. If the numbering also has the variable without arguments, the listing shows one line
twice and is refused. After the second reading nothing changes any more. `blank_argument_refused` is
a text that is read, and whose numbering has a listing that is not.
-/

set_option autoImplicit false

namespace Grounder

open Proofs.Support

/-- Only white space is trimmed to nothing. -/
theorem Text.trimChars_eq_nil {cs : List Char} :
    trimChars cs = [] ↔ ∀ c ∈ cs, isBlank c = true := by
  rw [trimChars_eq_rdropWhile, List.rdropWhile_eq_nil_iff]
  constructor
  · intro h
    -- What is left at the front begins with a character that is not blank, so nothing is left.
    have hnil : cs.dropWhile isBlank = [] := by
      by_contra hne
      have hhead := List.head_dropWhile_not isBlank hne
      rw [h _ (List.head_mem hne)] at hhead
      cases hhead
    exact List.dropWhile_eq_nil_iff.1 hnil
  · intro h c hc
    exact h c ((List.dropWhile_sublist isBlank).subset hc)

namespace StateVariable

/-- A line with nothing but white space between the parentheses, and not without any. -/
def HasBlankArgument (line : String) : Prop :=
  ∃ symbol inner, Text.trimChars line.toList = symbol ++ '(' :: (inner ++ [')']) ∧
    '(' ∉ symbol ∧ inner ≠ [] ∧ ∀ c ∈ inner, Text.isBlank c = true

/-- The variable that the listing form of a readable variable is read as. -/
def relisted (v : StateVariable) : StateVariable := ⟨v.symbol, if v.args = [""] then [] else v.args⟩

variable {line : String} {v w : StateVariable} {inner : List Char}

/-! ### Blank arguments -/

/-- A single empty argument comes from white space. -/
theorem argsOf_eq_single_empty :
    argsOf inner = [""] ↔ inner ≠ [] ∧ ∀ c ∈ inner, Text.isBlank c = true := by
  rw [argsOf]
  by_cases hinner : inner = []
  · simp [hinner]
  rw [if_neg (by simpa using hinner)]
  constructor
  · intro h
    obtain ⟨piece, hpiece, hempty⟩ := List.map_eq_singleton_iff.1 h
    -- There is one piece, so it is the whole.
    have hwhole : [','].intercalate (inner.splitOn ',') = inner := List.intercalate_splitOn ','
    rw [hpiece, List.intercalate_singleton] at hwhole
    rw [String.ofList_eq_empty_iff, hwhole] at hempty
    exact ⟨hinner, Text.trimChars_eq_nil.1 hempty⟩
  · rintro ⟨-, hblank⟩
    have hcomma : ',' ∉ inner := fun hmem => absurd (hblank ',' hmem) (by decide)
    rw [List.splitOn_eq_singleton hcomma, List.map_singleton, Text.trimChars_eq_nil.2 hblank]

/-- A line is read as a variable with a single empty argument exactly if it has a blank one. -/
theorem args_eq_single_empty_iff (h : parse line = .ok v) :
    v.args = [""] ↔ HasBlankArgument line := by
  obtain ⟨symbol, inner, hcs, hopening, -, rfl⟩ := parse_eq_ok.1 h
  rw [argsOf_eq_single_empty]
  constructor
  · rintro ⟨hne, hblank⟩
    exact ⟨symbol, inner, hcs, hopening, hne, hblank⟩
  · rintro ⟨symbol', inner', hcs', hopening', hne, hblank⟩
    -- The first opening parenthesis is the same, and so is what stands behind it.
    obtain ⟨rfl, hinner⟩ : symbol = symbol' ∧ inner ++ [')'] = inner' ++ [')'] := by
      have hsplit := congrArg (List.splitOn '(') (hcs.symm.trans hcs')
      rw [List.splitOn_append_cons_self_of_not_mem hopening,
        List.splitOn_append_cons_self_of_not_mem hopening'] at hsplit
      obtain rfl := (List.cons.inj hsplit).1
      refine ⟨rfl, ?_⟩
      simpa [hcs] using hcs'
    rw [List.append_cancel_right_eq] at hinner
    exact hinner ▸ ⟨hne, hblank⟩

/-- A line with a blank argument is not blank. -/
theorem HasBlankArgument.isBlankText (h : HasBlankArgument line) :
    Text.isBlankText line = false := by
  obtain ⟨symbol, inner, hcs, -, -, -⟩ := h
  exact Text.isBlankText_of_mem (Text.trimChars_subset _ (by simp [hcs])) (c := '(') (by decide)

/-! ### Reading a listing form again -/

/-- A variable without a single empty argument is read as itself. -/
theorem relisted_eq_self : v.relisted = v ↔ v.args ≠ [""] := by
  obtain ⟨symbol, args⟩ := v
  by_cases hargs : args = [""]
  · simp [relisted, hargs]
  · simp [relisted, hargs]

/-- What is read from a listing form is read as itself. -/
theorem relisted_relisted (v : StateVariable) : v.relisted.relisted = v.relisted := by
  rw [relisted_eq_self, relisted]
  split
  · simp
  · assumption

/-- Two variables that are read as the same one are the variable of a symbol without arguments and
that with a single empty one. -/
theorem args_of_relisted_eq (h : v.relisted = w.relisted) (hne : v ≠ w) :
    v.symbol = w.symbol ∧
      (v.args = [] ∧ w.args = [""] ∨ v.args = [""] ∧ w.args = []) := by
  obtain ⟨symbol, args⟩ := v
  obtain ⟨symbol', args'⟩ := w
  simp only [relisted, StateVariable.mk.injEq] at h
  obtain ⟨rfl, hargs⟩ := h
  refine ⟨rfl, ?_⟩
  by_cases hv : args = [""]
  · by_cases hw : args' = [""]
    · exact absurd (by rw [hv, hw]) hne
    · simp only [hv, hw, if_true, if_false] at hargs
      exact Or.inr ⟨hv, hargs.symm⟩
  · by_cases hw : args' = [""]
    · simp only [hv, hw, if_true, if_false] at hargs
      exact Or.inl ⟨hargs, hw⟩
    · simp only [hv, hw, if_false] at hargs
      exact absurd (by rw [hargs]) hne

end StateVariable

namespace VariableNumbering

/-! ### Where reading stops -/

/-- Reading stops at the first line, blank ones apart, that is no variable or repeats one that was
read before. -/
theorem readLines_eq_error {lines : List String} {numbering : VariableNumbering} {number : Nat}
    {e : ListingError} (h : numbering.readLines number lines = .error e) :
    ∃ before line after reached, lines = before ++ line :: after ∧
      numbering.readLines number before = .ok reached ∧ e.line = number + before.length ∧
      Text.isBlankText line = false ∧
      ((∃ fault, StateVariable.parse line = .error fault ∧ e.fault = .parse fault) ∨
        ∃ v, StateVariable.parse line = .ok v ∧ v ∈ reached.vars ∧
          e.fault = .register (.duplicateRegistration v)) := by
  induction lines generalizing numbering number with
  | nil => cases h
  | cons line rest ih =>
    rw [readLines] at h
    by_cases hblank : Text.isBlankText line = true
    · rw [if_pos hblank] at h
      obtain ⟨before, line', after, reached, rfl, hread, hnumber, hfilled, hfault⟩ := ih h
      refine ⟨line :: before, line', after, reached, rfl, ?_, ?_, hfilled, hfault⟩
      · rw [readLines, if_pos hblank]
        exact hread
      · rw [hnumber, List.length_cons]
        omega
    have hfilled : Text.isBlankText line = false := eq_false_of_ne_true hblank
    rw [if_neg hblank] at h
    cases hparse : StateVariable.parse line with
    | error fault =>
      simp only [hparse, Except.error.injEq] at h
      subst h
      exact ⟨[], line, rest, numbering, rfl, rfl, rfl, hfilled, Or.inl ⟨fault, hparse, rfl⟩⟩
    | ok v =>
      simp only [hparse] at h
      by_cases hmem : v ∈ numbering.vars
      · have hregister : numbering.register v = .error (.duplicateRegistration v) :=
          dif_pos hmem
        simp only [hregister, Except.error.injEq] at h
        subst h
        exact ⟨[], line, rest, numbering, rfl, rfl, rfl, hfilled, Or.inr ⟨v, hparse, hmem, rfl⟩⟩
      · obtain ⟨next, hnext⟩ : ∃ next, numbering.register v = .ok next := ⟨_, dif_neg hmem⟩
        simp only [hnext] at h
        obtain ⟨before, line', after, reached, rfl, hread, hnumber, hfilled', hfault⟩ := ih h
        refine ⟨line :: before, line', after, reached, rfl, ?_, ?_, hfilled', hfault⟩
        · rw [readLines, if_neg hblank]
          simp only [hparse, hnext]
          exact hread
        · rw [hnumber, List.length_cons]
          omega

/-! ### Reading the listing of readable variables -/

variable {text : String} {numbering again : VariableNumbering} {vs : List StateVariable}

/-- Listing forms are read as the variables that they stand for. -/
theorem vars_of_readLines_texts {reached : VariableNumbering} {number : Nat}
    (h : ∀ v ∈ vs, v.Readable)
    (hread : numbering.readLines number (vs.map StateVariable.text) = .ok reached) :
    reached.vars = numbering.vars ++ vs.map StateVariable.relisted := by
  obtain ⟨ws, hws, hregister⟩ := readLines_eq_ok.1 hread
  rw [filledLines_texts, List.forall₂_map_left_iff] at hws
  have hrelisted : vs.map StateVariable.relisted = ws.map id := by
    refine map_eq_map (((List.forall₂_and_left _ _).2 ⟨h, hws⟩).imp fun v w ⟨hv, hw⟩ => ?_)
    rw [StateVariable.parse_text hv] at hw
    exact Except.ok.inj hw
  rw [(registerAll_eq_ok hregister).1, hrelisted, List.map_id]

/-- The variables of a listing that is read again come back without single empty arguments. -/
theorem vars_of_ofListing_listing (h : ∀ v ∈ numbering.vars, v.Readable)
    (hagain : ofListing numbering.listing = .ok again) :
    again.vars = numbering.vars.map StateVariable.relisted := by
  rw [ofListing, lines_listing h] at hagain
  exact vars_of_readLines_texts h hagain

/-- A numbering that was read has no blocks. -/
theorem blocks_of_ofListing (h : ofListing text = .ok numbering) : numbering.blocks = [] := by
  obtain ⟨vs, -, hregister⟩ := readLines_eq_ok.1 h
  exact (registerAll_eq_ok hregister).2

/-- Numberings that were read are the same if they have the same variables. -/
theorem eq_of_ofListing {text' : String} (h : ofListing text = .ok numbering)
    (h' : ofListing text' = .ok again) (hvars : again.vars = numbering.vars) :
    again = numbering := by
  have hblocks := (blocks_of_ofListing h').trans (blocks_of_ofListing h).symm
  obtain ⟨vs, hnodup, blocks⟩ := numbering
  obtain ⟨vs', hnodup', blocks'⟩ := again
  obtain rfl : vs' = vs := hvars
  obtain rfl : blocks' = blocks := hblocks
  rfl

/-- The listing of readable variables is refused only if it shows a line twice: that of a symbol
without arguments and that of the same symbol with a single empty one. -/
theorem ofListing_listing_eq_error (h : ∀ v ∈ numbering.vars, v.Readable) {e : ListingError}
    (herror : ofListing numbering.listing = .error e) :
    ∃ symbol bare empty, numbering.handle? ⟨symbol, []⟩ = some bare ∧
      numbering.handle? ⟨symbol, [""]⟩ = some empty ∧
      e = ⟨max bare empty + 1, .register (.duplicateRegistration ⟨symbol, []⟩)⟩ := by
  rw [ofListing, lines_listing h] at herror
  obtain ⟨before, line, after, reached, hlines, hread, hnumber, -, hfault⟩ :=
    readLines_eq_error herror
  -- The line is that of a variable, and those before it are those of the variables before it.
  obtain ⟨vs, rest, hvars, rfl, hrest⟩ := List.map_eq_append_iff.1 hlines
  obtain ⟨v, vs', rfl, rfl, -⟩ := List.map_eq_cons_iff.1 hrest
  have hmem : v ∈ numbering.vars := hvars ▸ List.mem_append_right vs List.mem_cons_self
  have hbefore : ∀ w ∈ vs, w.Readable := fun w hw => h w (hvars ▸ List.mem_append_left _ hw)
  have hparse : StateVariable.parse v.text = .ok v.relisted := StateVariable.parse_text (h v hmem)
  rw [hparse] at hfault
  rcases hfault with ⟨fault, hfails, -⟩ | ⟨_, hread', hrepeated, hregister⟩
  · cases hfails
  obtain rfl := Except.ok.inj hread'
  rw [vars_of_readLines_texts hbefore hread] at hrepeated
  obtain ⟨w, hw, hsame⟩ := List.mem_map.1 hrepeated
  -- The two variables are different, and the one before has the smaller handle.
  have hne : w ≠ v := by
    have hnodup := numbering.nodup
    rw [hvars] at hnodup
    exact (List.nodup_append.1 hnodup).2.2 w hw v List.mem_cons_self
  have hv : numbering.handle? v = some vs.length := by
    rw [handle?_eq_some, variableAt?, hvars, List.getElem?_append_right (Nat.le_refl _),
      Nat.sub_self]
    rfl
  obtain ⟨i, hi, hget⟩ := List.mem_iff_getElem.1 hw
  have hw : numbering.handle? w = some i := by
    rw [handle?_eq_some, variableAt?, hvars, List.getElem?_append_left hi,
      List.getElem?_eq_getElem hi, hget]
  have he : e = ⟨vs.length + 1, .register (.duplicateRegistration v.relisted)⟩ := by
    obtain ⟨line, fault⟩ := e
    obtain rfl : fault = _ := hregister
    obtain rfl : line = 1 + _ := hnumber
    rw [List.length_map, Nat.add_comm]
  obtain ⟨hsymbol, hargs⟩ := StateVariable.args_of_relisted_eq hsame hne
  obtain ⟨symbol, args⟩ := v
  obtain ⟨symbol', args'⟩ := w
  obtain rfl : symbol' = symbol := hsymbol
  rcases hargs with ⟨hbare, hempty⟩ | ⟨hempty, hbare⟩
  · obtain rfl : args' = [] := hbare
    obtain rfl : args = [""] := hempty
    exact ⟨symbol', i, vs.length, hw, hv, by rw [he, max_eq_right hi.le]; rfl⟩
  · obtain rfl : args' = [""] := hempty
    obtain rfl : args = [] := hbare
    exact ⟨symbol', vs.length, i, hv, hw, by rw [he, max_eq_left hi.le]; rfl⟩

/-- The listing of readable variables is accepted unless some symbol is there both without arguments
and with a single empty one. -/
theorem exists_ofListing_listing_iff (h : ∀ v ∈ numbering.vars, v.Readable) :
    (∃ again, ofListing numbering.listing = .ok again) ↔
      ∀ symbol, ¬ (⟨symbol, []⟩ ∈ numbering.vars ∧ ⟨symbol, [""]⟩ ∈ numbering.vars) := by
  constructor
  · rintro ⟨again, hagain⟩ symbol ⟨hbare, hempty⟩
    -- Both variables would come back as the same one.
    have hnodup := again.nodup
    rw [vars_of_ofListing_listing h hagain] at hnodup
    cases List.inj_on_of_nodup_map hnodup hbare hempty rfl
  · intro hapart
    cases hagain : ofListing numbering.listing with
    | ok again => exact ⟨again, rfl⟩
    | error e =>
      obtain ⟨symbol, bare, empty, hbare, hempty, -⟩ := ofListing_listing_eq_error h hagain
      rw [handle?_eq_some] at hbare hempty
      exact absurd ⟨List.mem_of_getElem? hbare, List.mem_of_getElem? hempty⟩ (hapart symbol)

/-! ### Reading, writing, and reading again -/

/-- A numbering that was read is read again if it has no single empty argument. -/
theorem ofListing_listing_of_args (h : ofListing text = .ok numbering)
    (hargs : ∀ v ∈ numbering.vars, v.args ≠ [""]) :
    ofListing numbering.listing = .ok numbering := by
  have hreadable := readable_of_mem_ofListing h
  obtain ⟨again, hagain⟩ := (exists_ofListing_listing_iff hreadable).2
    fun symbol hboth => hargs _ hboth.2 rfl
  have hvars : again.vars = numbering.vars := by
    rw [vars_of_ofListing_listing hreadable hagain]
    refine (List.map_congr_left fun v hv => ?_).trans numbering.vars.map_id
    exact StateVariable.relisted_eq_self.2 (hargs v hv)
  rw [hagain, eq_of_ofListing h hagain hvars]

/-- A listing that is read has a single empty argument exactly where a line has a blank one. -/
theorem args_ne_single_empty_iff (h : ofListing text = .ok numbering) :
    (∀ v ∈ numbering.vars, v.args ≠ [""]) ↔
      ∀ line ∈ Text.lines text, ¬ StateVariable.HasBlankArgument line := by
  obtain ⟨hlines, -⟩ := ofListing_eq_ok.1 ⟨numbering, h, rfl⟩
  constructor
  · intro hargs line hline hblank
    have hfilled : line ∈ filledLines (Text.lines text) :=
      List.mem_filter.2 ⟨hline, by rw [hblank.isBlankText]; rfl⟩
    obtain ⟨v, hv, hparse⟩ := exists_counterpart hlines.flip hfilled
    exact hargs v hv ((StateVariable.args_eq_single_empty_iff hparse).2 hblank)
  · intro hblank v hv hargs
    obtain ⟨line, hline, hparse⟩ := exists_counterpart hlines hv
    exact hblank line (List.mem_of_mem_filter hline)
      ((StateVariable.args_eq_single_empty_iff hparse).1 hargs)

/-- What becomes of a numbering that was read from a text when its listing is read. -/
structure Relists (text : String) (numbering : VariableNumbering) : Prop where
  /-- The same numbering is read again, with the same variables under the same handles, exactly if
  no line of the text has nothing but white space between the parentheses. -/
  same : ofListing numbering.listing = .ok numbering ↔
    ∀ line ∈ Text.lines text, ¬ StateVariable.HasBlankArgument line
  /-- Some numbering is read exactly if no symbol is there both without arguments and with a single
  empty one. -/
  accepted : (∃ again, ofListing numbering.listing = .ok again) ↔
    ∀ symbol, ¬ (⟨symbol, []⟩ ∈ numbering.vars ∧ ⟨symbol, [""]⟩ ∈ numbering.vars)
  /-- It has as many variables, and under each handle the same one but for a single empty argument.
  Its own listing gives this numbering again. -/
  again : ∀ again, ofListing numbering.listing = .ok again →
    again.size = numbering.size ∧
    (∀ handle, again.variableAt? handle
      = (numbering.variableAt? handle).map StateVariable.relisted) ∧
    ofListing again.listing = .ok again
  /-- The error is that the later one of two such variables repeats the other. -/
  refused : ∀ e, ofListing numbering.listing = .error e →
    ∃ symbol bare empty, numbering.handle? ⟨symbol, []⟩ = some bare ∧
      numbering.handle? ⟨symbol, [""]⟩ = some empty ∧
      e = ⟨max bare empty + 1, .register (.duplicateRegistration ⟨symbol, []⟩)⟩

/-- The listing of a numbering that was read is read as the same numbering, up to arguments that are
nothing but white space. -/
theorem ofListing_again {text : String} {numbering : VariableNumbering}
    (h : ofListing text = .ok numbering) : Relists text numbering := by
  have hreadable := readable_of_mem_ofListing h
  refine ⟨?_, exists_ofListing_listing_iff hreadable, fun again hagain => ?_,
    fun e => ofListing_listing_eq_error hreadable⟩
  · rw [← args_ne_single_empty_iff h]
    constructor
    · intro hagain v hv
      have hvars := vars_of_ofListing_listing hreadable hagain
      rw [← List.map_id numbering.vars, List.map_map] at hvars
      exact StateVariable.relisted_eq_self.1 (List.map_inj_left.1 hvars.symm v hv)
    · exact ofListing_listing_of_args h
  · have hvars := vars_of_ofListing_listing hreadable hagain
    refine ⟨?_, fun handle => ?_, ofListing_listing_of_args hagain fun v hv => ?_⟩
    · rw [size, hvars, List.length_map, size]
    · rw [variableAt?, hvars, List.getElem?_map, variableAt?]
    · rw [hvars] at hv
      obtain ⟨w, -, rfl⟩ := List.mem_map.1 hv
      exact StateVariable.relisted_eq_self.1 w.relisted_relisted

/-- A listing with white space, blank lines and a carriage return is read as the same numbering
after it was read and written. -/
theorem ofListing_again_spaced :
    ∃ numbering, ofListing " on( a , b)\n \nclear (,)\r\nidle()" = .ok numbering ∧
      numbering.vars = [⟨"on", ["a", "b"]⟩, ⟨"clear ", ["", ""]⟩, ⟨"idle", []⟩] ∧
      ofListing numbering.listing = .ok numbering := by
  obtain ⟨numbering, hread, hvars⟩ : ∃ numbering,
      ofListing " on( a , b)\n \nclear (,)\r\nidle()" = .ok numbering ∧
        numbering.vars = [⟨"on", ["a", "b"]⟩, ⟨"clear ", ["", ""]⟩, ⟨"idle", []⟩] :=
    ⟨_, rfl, rfl⟩
  refine ⟨numbering, hread, hvars, (ofListing_again hread).same.2 ?_⟩
  rw [← args_ne_single_empty_iff hread, hvars]
  decide

/-- The text is read as a numbering whose listing shows one line twice, and is refused. -/
theorem blank_argument_refused :
    ∃ numbering, ofListing "p()\np( )\n" = .ok numbering ∧
      numbering.vars = [⟨"p", []⟩, ⟨"p", [""]⟩] ∧
      ofListing numbering.listing
        = .error ⟨2, .register (.duplicateRegistration ⟨"p", []⟩)⟩ :=
  ⟨_, rfl, rfl, rfl⟩

end VariableNumbering

end Grounder
