import Grounder.Proofs.Compile.StaticExternals
import Grounder.Proofs.Text.Decimal

/-!
# `Grounder.Proofs.Compile.ConstraintListing`: reading the listing of static constraints back

The listing has a line for each constraint that is decided before the search: its number, the name
of its kind, its parameters joined by commas, and the texts of its terms joined by spaces. None of
these texts is escaped, so a reader that cuts at line feeds, spaces and commas gets back what was
written only if the texts hold none of them (`StaticEntry.IsPlain`).

`staticConstraints_read_back` says so for all plans, and what the listing tells about texts that may
hold spaces and commas: the numbers of the constraints, and for each of them the text that the
parameters and the terms are joined to. `comma_in_parameter` shows two plans that differ in their
parameters and print the same listing.
-/

set_option autoImplicit false

namespace Grounder

open Proofs.Support

/-- What the listing is to say of a static constraint. -/
structure StaticEntry where
  id : Nat
  parameters : List String
  terms : List String
  deriving DecidableEq, Repr

/-- The entry of a constraint of a plan. -/
def NumberedUse.staticEntry (c : NumberedUse) : StaticEntry :=
  ⟨c.id, c.constraint.parameters, Term.texts c.args⟩

/-- The entries of all static constraints of a plan. -/
def ConstraintPlan.staticEntries (plan : ConstraintPlan) : List StaticEntry :=
  plan.statics.map NumberedUse.staticEntry

namespace StaticEntry

/-- The text that parameters and terms are joined to. -/
def joinedText (e : StaticEntry) : String :=
  ",".intercalate e.parameters ++ " " ++ " ".intercalate e.terms

/-- The line of an entry. -/
def line (e : StaticEntry) : String :=
  toString e.id ++ " " ++ (ConstraintKind.external.name ++ " " ++ e.joinedText)

/-- No text of the entry holds a line feed. -/
def IsSingleLine (e : StaticEntry) : Prop :=
  (∀ text ∈ e.parameters, '\n' ∉ text.toList) ∧ ∀ text ∈ e.terms, '\n' ∉ text.toList

/-- No text of the entry holds anything that ends it in a line. -/
structure IsPlain (e : StaticEntry) : Prop where
  singleLine : e.IsSingleLine
  parameters : ∀ text ∈ e.parameters, ',' ∉ text.toList ∧ ' ' ∉ text.toList
  terms : ∀ text ∈ e.terms, ' ' ∉ text.toList
  /-- A single empty text is as if there were no terms. -/
  terms_ne : e.terms ≠ [""]

/-! ### Reading -/

/-- The texts between separators. -/
def cut (separator : Char) (cs : List Char) : List String :=
  (cs.splitOn separator).map String.ofList

/-- A line as an entry. -/
def read? (line : List Char) : Option StaticEntry :=
  match cut ' ' line with
  | id :: name :: parameters :: terms =>
    if name = ConstraintKind.external.name then
      (Text.natural? id.toList).map fun n =>
        ⟨n, cut ',' parameters.toList, if terms = [""] then [] else terms⟩
    else none
  | _ => none

/-- The lines of a listing as entries. Nothing follows the last line feed. -/
def readLines (listing : String) : List (Option StaticEntry) :=
  (listing.toList.splitOn '\n').dropLast.map read?

variable {e : StaticEntry}

/-- Joined texts are cut where they were joined, if the separator is not in them. -/
theorem cut_intercalate {separator : String} {c : Char} (hc : separator.toList = [c])
    {texts : List String} (hne : texts ≠ []) (h : ∀ text ∈ texts, c ∉ text.toList) :
    cut c (separator.intercalate texts).toList = texts := by
  have hpieces : (separator.intercalate texts).toList.splitOn c = texts.map String.toList := by
    rw [String.toList_intercalate, hc]
    refine List.splitOn_intercalate c ?_ (by simpa using hne)
    intro piece hpiece
    obtain ⟨text, htext, rfl⟩ := List.mem_map.1 hpiece
    exact h text htext
  rw [cut, hpieces, List.map_map]
  show texts.map (fun text => String.ofList text.toList) = texts
  simp

/-- A text between separators is a part of the whole without separators. -/
theorem of_mem_cut {c : Char} {cs : List Char} {text : String} (h : text ∈ cut c cs) :
    c ∉ text.toList ∧ text.toList ⊆ cs := by
  obtain ⟨piece, hpiece, rfl⟩ := List.mem_map.1 h
  rw [String.toList_ofList]
  exact ⟨not_mem_of_mem_splitOn hpiece, subset_of_mem_splitOn hpiece⟩

/-- The pieces of the line of a plain entry. -/
theorem cut_line (h : e.IsPlain) : cut ' ' e.line.toList =
    toString e.id :: ConstraintKind.external.name :: ",".intercalate e.parameters ::
      if e.terms = [] then [""] else e.terms := by
  have hline : e.line = " ".intercalate (toString e.id :: ConstraintKind.external.name ::
      ",".intercalate e.parameters :: if e.terms = [] then [""] else e.terms) := by
    rw [line, joinedText]
    -- Without terms, the line ends in a space, and the piece behind it is empty.
    cases e.terms with
    | nil => simp [String.intercalate_cons_cons, String.append_assoc]
    | cons first rest => simp [String.intercalate_cons_cons, String.append_assoc]
  rw [hline]
  refine cut_intercalate rfl (List.cons_ne_nil _ _) ?_
  simp only [List.forall_mem_cons]
  refine ⟨not_mem_toString e.id (by decide), by decide, ?_, ?_⟩
  · exact not_mem_intercalate (by decide) fun text htext => (h.parameters text htext).2
  · split
    · simp
    · exact h.terms

/-- The line of a plain entry is read as that entry. -/
theorem read?_line (h : e.IsPlain) (hne : e.parameters ≠ []) :
    read? e.line.toList = some e := by
  have hparameters : cut ',' (",".intercalate e.parameters).toList = e.parameters :=
    cut_intercalate rfl hne fun text htext => (h.parameters text htext).1
  have hterms : (if (if e.terms = [] then [""] else e.terms) = [""] then []
      else if e.terms = [] then [""] else e.terms) = e.terms := by
    by_cases hnil : e.terms = []
    · simp [hnil]
    · simp [hnil, h.terms_ne]
  rw [read?, cut_line h]
  simp only [if_true, Text.natural?_toString, Option.map_some, hparameters, hterms]

/-- Whatever is read from a single line is plain. -/
theorem isPlain_of_read? {cs : List Char} (hfeed : '\n' ∉ cs) (h : read? cs = some e) :
    e.IsPlain := by
  rw [read?] at h
  split at h
  -- A line that is read has at least a number, a name and parameters.
  · rename_i id name parameters terms hcut
    have hpiece : ∀ text ∈ id :: name :: parameters :: terms,
        ' ' ∉ text.toList ∧ '\n' ∉ text.toList := by
      intro text htext
      obtain ⟨hspace, hsub⟩ := of_mem_cut (hcut ▸ htext)
      exact ⟨hspace, fun hmem => hfeed (hsub hmem)⟩
    simp only [List.forall_mem_cons] at hpiece
    obtain ⟨-, -, hparameters, hterms⟩ := hpiece
    split at h
    · obtain ⟨n, -, rfl⟩ := Option.map_eq_some_iff.1 h
      -- The parameters are pieces of a piece, so they hold neither commas nor spaces.
      have hparameter : ∀ text ∈ cut ',' parameters.toList,
          ',' ∉ text.toList ∧ ' ' ∉ text.toList ∧ '\n' ∉ text.toList := by
        intro text htext
        obtain ⟨hcomma, hsub⟩ := of_mem_cut htext
        exact ⟨hcomma, fun hmem => hparameters.1 (hsub hmem), fun hmem => hparameters.2 (hsub hmem)⟩
      have hterm : ∀ text ∈ (if terms = [""] then [] else terms), text ∈ terms := by
        intro text htext
        split at htext
        · cases htext
        · exact htext
      refine ⟨⟨?_, ?_⟩, ?_, ?_, ?_⟩
      · exact fun text htext => (hparameter text htext).2.2
      · exact fun text htext => (hterms text (hterm text htext)).2
      · exact fun text htext => ⟨(hparameter text htext).1, (hparameter text htext).2.1⟩
      · exact fun text htext => (hterms text (hterm text htext)).1
      · show (if terms = [""] then [] else terms) ≠ [""]
        split
        · exact List.cons_ne_nil _ _ |>.symm
        · assumption
    · cases h
  · cases h

/-- A line without line feeds in its texts is a single line. -/
theorem IsSingleLine.not_mem_line (h : e.IsSingleLine) : '\n' ∉ e.line.toList := by
  have hparameters : '\n' ∉ (",".intercalate e.parameters).toList :=
    not_mem_intercalate (by decide) h.1
  have hterms : '\n' ∉ (" ".intercalate e.terms).toList := not_mem_intercalate (by decide) h.2
  have hid : '\n' ∉ (toString e.id).toList := not_mem_toString e.id (by decide)
  have hname : '\n' ∉ ConstraintKind.external.name.toList := by decide
  simp only [line, joinedText, String.toList_append, List.mem_append, not_or]
  exact ⟨⟨hid, by decide⟩, ⟨hname, by decide⟩, ⟨hparameters, by decide⟩, hterms⟩

/-- The line of an entry begins with its number. -/
theorem lineNumber?_line (e : StaticEntry) : lineNumber? e.line = some e.id := by
  have hstops : Code.Stops (" ".toList ++
      (ConstraintKind.external.name ++ " " ++ e.joinedText).toList) :=
    Code.stops_append rfl (by decide) _
  rw [lineNumber?, line, String.toList_append, String.toList_append, List.append_assoc,
    Code.nat?_toString e.id hstops, Option.map_some]

/-- Entries have the same line exactly if they agree in their numbers and in the text that the rest
of them is joined to. -/
theorem line_inj {e' : StaticEntry} :
    e.line = e'.line ↔ e.id = e'.id ∧ e.joinedText = e'.joinedText := by
  constructor
  · intro h
    -- The line begins with the number, and the same text follows the same number.
    have hid : e.id = e'.id := by
      rw [← Option.some_inj, ← lineNumber?_line, ← lineNumber?_line, h]
    refine ⟨hid, ?_⟩
    rw [line, line, hid, String.append_right_inj, String.append_right_inj] at h
    exact h
  · rintro ⟨hid, htext⟩
    rw [line, line, hid, htext]

/-- A listing of single lines is cut into them, and nothing follows the last one. -/
theorem splitOn_listing {entries : List StaticEntry} (h : ∀ e ∈ entries, e.IsSingleLine) :
    (Text.unlines (entries.map line)).toList.splitOn '\n'
      = (entries.map fun e => e.line.toList) ++ [[]] := by
  have hlines : ∀ text ∈ entries.map line, '\n' ∉ text.toList := by
    intro text htext
    obtain ⟨e, he, rfl⟩ := List.mem_map.1 htext
    exact (h e he).not_mem_line
  rw [splitOn_unlines hlines, List.map_map]
  rfl

/-- Entries with parameters are read back from their listing exactly if all of them are plain. -/
theorem readLines_eq_iff {entries : List StaticEntry} (hne : ∀ e ∈ entries, e.parameters ≠ []) :
    readLines (Text.unlines (entries.map line)) = entries.map some ↔
      ∀ e ∈ entries, e.IsPlain := by
  constructor
  · intro h e he
    -- The entry is read from a piece between line feeds.
    have hread : some e ∈ readLines (Text.unlines (entries.map line)) :=
      h ▸ List.mem_map_of_mem he
    obtain ⟨piece, hpiece, hread⟩ := List.mem_map.1 hread
    exact isPlain_of_read? (not_mem_of_mem_splitOn (List.dropLast_subset _ hpiece)) hread
  · intro h
    rw [readLines, splitOn_listing fun e he => (h e he).singleLine, List.dropLast_concat,
      List.map_map]
    refine List.map_congr_left fun e he => ?_
    rw [Function.comp_apply, read?_line (h e he) (hne e he)]

/-- Listings of single lines are the same exactly if their entries agree in the numbers and in the
joined texts. -/
theorem unlines_inj {entries entries' : List StaticEntry} (h : ∀ e ∈ entries, e.IsSingleLine)
    (h' : ∀ e ∈ entries', e.IsSingleLine) :
    Text.unlines (entries.map line) = Text.unlines (entries'.map line) ↔
      entries.map (fun e => (e.id, e.joinedText)) = entries'.map fun e => (e.id, e.joinedText) := by
  -- Entry by entry, the lines are the same exactly if the numbers and the joined texts are.
  have hentries : ∀ es es' : List StaticEntry, es.map line = es'.map line ↔
      es.map (fun e => (e.id, e.joinedText)) = es'.map fun e => (e.id, e.joinedText) := by
    intro es
    induction es with
    | nil =>
      intro es'
      cases es' <;> simp
    | cons e rest ih =>
      intro es'
      cases es' with
      | nil => simp
      | cons e' rest' =>
        simp only [List.map_cons, List.cons.injEq, line_inj, Prod.mk.injEq, ih]
  rw [← hentries]
  constructor
  · intro hlisting
    have hpieces := splitOn_listing h
    rw [hlisting, splitOn_listing h', List.append_cancel_right_eq] at hpieces
    have hinjective : Function.Injective String.toList := fun _ _ => String.toList_inj.1
    refine List.map_injective_iff.2 hinjective ?_
    rw [List.map_map, List.map_map]
    exact hpieces.symm
  · intro hlines
    rw [hlines]

end StaticEntry

/-! ### Listings of plans -/

namespace ConstraintPlan

variable {t t' : Task} {c c' : Classification} {resolve resolve' : Bool}
  {plan plan' : ConstraintPlan}

/-- A static constraint of a plan is an external one, so it has a parameter, and its line is that of
its entry. -/
theorem staticLine_eq (hplan : ofTask t c resolve = .ok plan) {u : NumberedUse}
    (hu : u ∈ plan.statics) :
    u.staticEntry.parameters ≠ [] ∧ staticLine u = u.staticEntry.line := by
  obtain ⟨huses, hstatic⟩ := List.mem_filter.1 hu
  obtain ⟨-, hexternal, -⟩ := (isStatic_iff hplan huses).1 hstatic
  obtain ⟨origin, use, hcheck⟩ := checked_of_mem_uses hplan huses
  obtain ⟨d, hd, hplanned⟩ := checkUse_eq_ok.1 hcheck
  obtain ⟨kind, hkind, hfault, rfl⟩ := CatalogConstraint.make_eq_ok.1 hd
  obtain ⟨⟨constraint, _, _, args⟩, id⟩ := u
  cases hplanned
  cases hexternal
  have hname : ConstraintKind.external.name = use.name := by simpa using List.find?_some hkind
  -- The first parameter names the relation, so the catalog refuses a use without one.
  have hparameters : use.parameters ≠ [] := by
    intro hnil
    rw [ConstraintKind.fault?, hnil] at hfault
    cases hfault
  refine ⟨hparameters, ?_⟩
  simp only [staticLine, NumberedUse.staticEntry, StaticEntry.line, StaticEntry.joinedText, hname,
    List.isEmpty_eq_false_iff.2 hparameters, String.intercalate_cons_cons,
    String.intercalate_singleton, String.append_assoc, Bool.false_eq_true, if_false]

/-- The listing of a plan has the lines of its entries. -/
theorem staticConstraintsData_content (hplan : ofTask t c resolve = .ok plan) :
    plan.staticConstraintsData.content
      = Text.unlines (plan.staticEntries.map StaticEntry.line) := by
  show Text.unlines (plan.statics.map staticLine) = _
  rw [staticEntries, List.map_map]
  exact congrArg _ (List.map_congr_left fun u hu => (staticLine_eq hplan hu).2)

/-- Static constraints of a plan have parameters. -/
theorem parameters_ne_nil (hplan : ofTask t c resolve = .ok plan) :
    ∀ e ∈ plan.staticEntries, e.parameters ≠ [] := by
  intro e he
  obtain ⟨u, hu, rfl⟩ := List.mem_map.1 he
  exact (staticLine_eq hplan hu).1

/-- The listing of static constraints is read back exactly if all entries are plain, so plans with
different plain entries have different listings. As long as no text holds a line feed, the listing
tells the numbers and the joined texts, and nothing else. -/
theorem staticConstraints_read_back (hplan : ofTask t c resolve = .ok plan)
    (hplan' : ofTask t' c' resolve' = .ok plan') :
    (StaticEntry.readLines plan.staticConstraintsData.content = plan.staticEntries.map some ↔
      ∀ e ∈ plan.staticEntries, e.IsPlain) ∧
    ((∀ e ∈ plan.staticEntries, e.IsPlain) → (∀ e ∈ plan'.staticEntries, e.IsPlain) →
      plan.staticEntries ≠ plan'.staticEntries →
      plan.staticConstraintsData.content ≠ plan'.staticConstraintsData.content) ∧
    ((∀ e ∈ plan.staticEntries, e.IsSingleLine) → (∀ e ∈ plan'.staticEntries, e.IsSingleLine) →
      (plan.staticConstraintsData.content = plan'.staticConstraintsData.content ↔
        plan.staticEntries.map (fun e => (e.id, e.joinedText))
          = plan'.staticEntries.map fun e => (e.id, e.joinedText))) := by
  rw [staticConstraintsData_content hplan, staticConstraintsData_content hplan']
  have hread := StaticEntry.readLines_eq_iff (parameters_ne_nil hplan)
  have hread' := StaticEntry.readLines_eq_iff (parameters_ne_nil hplan')
  refine ⟨hread, ?_, StaticEntry.unlines_inj⟩
  -- The reader sees the contents only, so the same contents would be read as the same entries.
  intro hplain hplain' hne hcontent
  have hsome : plan.staticEntries.map some = plan'.staticEntries.map some := by
    rw [← hread.2 hplain, ← hread'.2 hplain', hcontent]
  exact hne (List.map_injective_iff.2 (fun _ _ => Option.some.inj) hsome)

/-- Lamps with one external constraint on states. -/
def externalTask (parameters : List String) (args : List Term) : Task :=
  { lampTask shiftAction with constraints := [⟨"external", parameters, args⟩] }

/-- The parameters `near` and `far` are read back, and the listing with `near` alone is another
one. -/
theorem staticConstraints_read_back_near :
    ∃ plan plan', ofTask (externalTask ["near", "far"] [.object "red"]) ⟨[]⟩ true = .ok plan ∧
      ofTask (externalTask ["near"] [.object "red"]) ⟨[]⟩ true = .ok plan' ∧
      StaticEntry.readLines plan.staticConstraintsData.content
        = [some ⟨0, ["near", "far"], ["red"]⟩] ∧
      plan.staticConstraintsData.content ≠ plan'.staticConstraintsData.content := by
  obtain ⟨plan, hplan⟩ : ∃ plan, ofTask (externalTask ["near", "far"] [.object "red"]) ⟨[]⟩ true
      = .ok plan := exists_eq_ok (by decide +kernel)
  obtain ⟨plan', hplan'⟩ : ∃ plan, ofTask (externalTask ["near"] [.object "red"]) ⟨[]⟩ true
      = .ok plan := exists_eq_ok (by decide +kernel)
  have hentries : plan.staticEntries = [⟨0, ["near", "far"], ["red"]⟩] :=
    feature_eq hplan (by decide +kernel)
  have hentries' : plan'.staticEntries = [⟨0, ["near"], ["red"]⟩] :=
    feature_eq hplan' (by decide +kernel)
  have hplain : ∀ e ∈ plan.staticEntries, e.IsPlain := by
    rw [hentries, List.forall_mem_singleton]
    exact ⟨⟨by decide +kernel, by decide +kernel⟩, by decide +kernel, by decide +kernel,
      by decide +kernel⟩
  have hplain' : ∀ e ∈ plan'.staticEntries, e.IsPlain := by
    rw [hentries', List.forall_mem_singleton]
    exact ⟨⟨by decide +kernel, by decide +kernel⟩, by decide +kernel, by decide +kernel,
      by decide +kernel⟩
  obtain ⟨hread, hdiffer, -⟩ := staticConstraints_read_back hplan hplan'
  refine ⟨plan, plan', hplan, hplan', ?_, hdiffer hplain hplain' ?_⟩
  · rw [hread.2 hplain, hentries]
    rfl
  · rw [hentries, hentries']
    decide

/-- One parameter with a comma is listed as two parameters are. -/
theorem comma_in_parameter :
    ∃ g g', CodeSource.ofTask (externalTask ["near,far"] [.object "red"]) ⟨.declaration, true⟩
        = .ok g ∧
      CodeSource.ofTask (externalTask ["near", "far"] [.object "red"]) ⟨.declaration, true⟩
        = .ok g' ∧
      g.plan.staticEntries = [⟨0, ["near,far"], ["red"]⟩] ∧
      g'.plan.staticEntries = [⟨0, ["near", "far"], ["red"]⟩] ∧
      g.plan.staticConstraintsData.content = g'.plan.staticConstraintsData.content := by
  obtain ⟨g, hg⟩ : ∃ g, CodeSource.ofTask (externalTask ["near,far"] [.object "red"])
      ⟨.declaration, true⟩ = .ok g := exists_eq_ok (by decide +kernel)
  obtain ⟨g', hg'⟩ : ∃ g, CodeSource.ofTask (externalTask ["near", "far"] [.object "red"])
      ⟨.declaration, true⟩ = .ok g := exists_eq_ok (by decide +kernel)
  have hcontent : g.plan.staticConstraintsData.content = "0 external near,far red\n" :=
    feature_eq hg (f := (·.plan.staticConstraintsData.content)) (by decide +kernel)
  have hcontent' : g'.plan.staticConstraintsData.content = "0 external near,far red\n" :=
    feature_eq hg' (f := (·.plan.staticConstraintsData.content)) (by decide +kernel)
  refine ⟨g, g', hg, hg', ?_, ?_, hcontent.trans hcontent'.symm⟩
  · exact feature_eq hg (f := (·.plan.staticEntries)) (by decide +kernel)
  · exact feature_eq hg' (f := (·.plan.staticEntries)) (by decide +kernel)

end ConstraintPlan

end Grounder
