import Grounder.Proofs.Json.Decoder
import Grounder.Proofs.Text.Decimal
import Grounder.Task.Load

/-!
# `Grounder.Proofs.Task.RoundTrip`: tasks survive being written back

A task is written in one form and read in many. Whatever form it was read from, the text that it is
written as is read as the same task (`Task.read_rewritten`).

What is written is longer than what was read: fields that were left out are written with their
defaults. Those of them that are lists or objects take a level of nesting, of which there are at
most `Json.maxNesting`. That this limit is never crossed rests on a parity. Tasks are read at an odd
number of levels and preconditions at an even number, and a formula inside another one stands two
levels further in. So where a formula can be read at all, two levels are left: one for the formula
and one for the lists in it (`Formula.rewrites_decodeWithin`). An action, an effect or a fact stands
so far out that room for its lists is no question.
-/

set_option autoImplicit false

namespace Grounder

open Json

/-- Names that may be left out survive where a level is left for their list. -/
theorem survives_strings {r : Record} {name : String} {xs : List String}
    (h : r.optional name (.list .string) [] = some xs) (hn : 0 < r.nesting) :
    Survives (.list .string) Value.ofStrings r.nesting xs :=
  Record.survives_optional_list h hn fun _ s _ => survives_string _ s

/-! ### Terms -/

namespace Term

/-- Terms are written one by one. -/
theorem array_allToJson (ts : List Term) : Value.array (allToJson ts) = .ofList toJson ts := by
  have hmap : allToJson ts = ts.map toJson := by
    induction ts with
    | nil => rfl
    | cons t ts ih => rw [allToJson, ih, List.map_cons]
  rw [hmap]
  rfl

/-- A term is not written as `null`. -/
theorem toJson_ne_null (t : Term) : t.toJson ≠ .null := by
  cases t <;> rw [toJson] <;> intro h <;> cases h

section Kinds

variable {depth nesting : Nat}

/-- A name survives, whether it is that of a parameter or of an object. -/
theorem survives_ofName (name : String) :
    Survives (decodeWithin (depth + 1)) toJson nesting (ofName name) := by
  have htext : (ofName name).toJson = .string name := by
    rw [ofName]
    split
    · rw [toJson]
    · rw [toJson]
  refine ⟨?_, ?_⟩
  · rw [htext, decodeWithin]
  · rw [htext]
    exact fits_string nesting name

/-- An integer survives. -/
theorem survives_int (w : Int64) : Survives (decodeWithin (depth + 1)) toJson nesting (.int w) := by
  refine ⟨?_, ?_⟩
  · rw [toJson]
    show (Text.word? w.toInt).map int = _
    rw [Text.word?_toInt, Option.map_some]
  · rw [toJson]
    exact ⟨rfl, w.minValue_le_toInt, Int.lt_trans w.toInt_lt (by decide)⟩

/-- An application survives if its arguments do. -/
theorem survives_app (hn : 0 < nesting) (symbol : String) {args : List Term}
    (hargs : Survives (.list (decodeWithin depth)) (.ofList toJson) (nesting - 1) args) :
    Survives (decodeWithin (depth + 1)) toJson nesting (.app symbol args) := by
  have hfits : Fits nesting (.object [("symbol", .string symbol),
      ("args", .ofList toJson args)]) := fits_object hn (by simp [hargs.fits])
  refine ⟨?_, ?_⟩
  · rw [toJson, array_allToJson]
    show (if _ then _ else none) = _
    rw [if_pos hfits.readable, Record.of?_object hn (by decide) (by exact .refl _)]
    simp [hargs.decodes]
  · rw [toJson, array_allToJson]
    exact hfits

end Kinds

/-- Terms that are read survive. -/
theorem rewrites_decodeWithin (depth nesting : Nat) :
    Rewrites (decodeWithin depth) toJson nesting := by
  induction depth generalizing nesting with
  | zero =>
    intro v t h
    cases h
  | succ depth ih =>
    intro v t h
    rw [decodeWithin.eq_def] at h
    simp only at h
    split at h
    · cases h
      exact survives_ofName _
    · obtain ⟨w, -, rfl⟩ := Option.map_eq_some_iff.1 h
      exact survives_int w
    · split at h
      · simp only [Option.bind_eq_bind, Option.bind_eq_some_iff] at h
        obtain ⟨r, hr, symbol, -, args, hargs, h⟩ := h
        cases h
        obtain ⟨hn, hnesting⟩ := Record.nesting_of_of? hr
        have hargs := Record.survives_required hargs (rewrites_list (ih _))
        rw [hnesting] at hargs
        exact survives_app hn symbol hargs
      · cases h
    · cases h

/-- Terms that are read survive. -/
theorem rewrites_decode (nesting : Nat) : Rewrites decode toJson nesting :=
  rewrites_decodeWithin maxNesting nesting

end Term

/-! ### Formulas -/

/-- Uses of constraints that are read survive, if levels are left for the lists in them. -/
theorem ConstraintUse.rewrites_decode {nesting : Nat} (hn : 1 < nesting) :
    Rewrites decode toJson nesting := by
  intro v use h
  simp only [decode, Option.bind_eq_bind, Option.bind_eq_some_iff] at h
  obtain ⟨r, hr, name, -, parameters, hparameters, args, hargs, h⟩ := h
  cases h
  obtain ⟨hpos, hnesting⟩ := Record.nesting_of_of? hr
  have hlevel : 0 < r.nesting := by omega
  have hparameters := survives_strings hparameters hlevel
  have hargs := Record.survives_optional_list hargs hlevel (Term.rewrites_decode _)
  rw [hnesting] at hparameters hargs
  refine ⟨?_, ?_⟩
  · rw [decode, toJson, members, Term.array_allToJson,
      Record.of?_object hpos (by decide) (by exact .refl _)]
    simp [hargs.decodes, hparameters.decodes]
  · rw [toJson, members, Term.array_allToJson]
    exact fits_object hpos (by simp [hparameters.fits, hargs.fits])

/-- A comparison survives. -/
theorem Comparison.survives (nesting : Nat) (op : Comparison) :
    Survives decode (fun op => .string op.sign) nesting op := by
  refine ⟨?_, fits_string _ _⟩
  show ofSign? op.sign = some op
  cases op <;> decide

namespace Formula

/-- Formulas are written one by one. -/
theorem array_allToJson (fs : List Formula) : Value.array (allToJson fs) = .ofList toJson fs := by
  have hmap : allToJson fs = fs.map toJson := by
    induction fs with
    | nil => rfl
    | cons f fs ih => rw [allToJson, ih, List.map_cons]
  rw [hmap]
  rfl

/-- A formula is not written as `null`. -/
theorem toJson_ne_null (f : Formula) : f.toJson ≠ .null := by
  cases f <;> rw [toJson] <;> intro h <;> cases h

section Kinds

variable {depth nesting : Nat} {inside : Bool}

/-- What always holds survives where a level is left. -/
theorem survives_true (hn : 0 < nesting) :
    Survives (decodeWithin inside (depth + 1)) toJson nesting .true := by
  have hrest : Fits nesting (.object []) := fits_object hn fun _ h => absurd h List.not_mem_nil
  have htagged := tagged?_object inside (show "true" ∈ kinds by simp [kinds]) (by simp) hrest
  refine ⟨?_, ?_⟩
  · simp only [toJson, decodeWithin, htagged, Option.bind_eq_bind, Option.bind_some]
    rfl
  · rw [toJson]
    exact fits_object_cons hrest _ _

/-- An atom survives if its arguments do. -/
theorem survives_atom (hn : 0 < nesting) (symbol : String) (negated : Bool) {args : List Term}
    (hargs : Survives (.list Term.decode) (.ofList Term.toJson) (nesting - 1) args) :
    Survives (decodeWithin inside (depth + 1)) toJson nesting (.atom symbol args negated) := by
  have hrest : Fits nesting (.object [("symbol", .string symbol),
      ("args", .ofList Term.toJson args), ("negated", .bool negated)]) :=
    fits_object hn (by simp [hargs.fits])
  have htagged := tagged?_object inside (show "atom" ∈ kinds by simp [kinds]) (by simp) hrest
  refine ⟨?_, ?_⟩
  · simp only [toJson, Term.array_allToJson, decodeWithin, htagged, Option.bind_eq_bind,
      Option.bind_some]
    rw [Record.of?_object hn (by decide) (by exact .refl _)]
    simp [hargs.decodes]
  · rw [toJson, Term.array_allToJson]
    exact fits_object_cons hrest _ _

/-- A comparison of terms survives if the terms do. -/
theorem survives_relation (hn : 0 < nesting) (op : Comparison) {lhs rhs : Term}
    (hlhs : Survives Term.decode Term.toJson (nesting - 1) lhs)
    (hrhs : Survives Term.decode Term.toJson (nesting - 1) rhs) :
    Survives (decodeWithin inside (depth + 1)) toJson nesting (.relation op lhs rhs) := by
  have hop := Comparison.survives (nesting - 1) op
  have hrest : Fits nesting (.object [("op", .string op.sign), ("lhs", lhs.toJson),
      ("rhs", rhs.toJson)]) := fits_object hn (by simp [hop.fits, hlhs.fits, hrhs.fits])
  have htagged := tagged?_object inside (show "relation" ∈ kinds by simp [kinds]) (by simp) hrest
  refine ⟨?_, ?_⟩
  · simp only [toJson, decodeWithin, htagged, Option.bind_eq_bind, Option.bind_some]
    rw [Record.of?_object hn (by decide) (by exact .refl _)]
    simp [hop.decodes, hlhs.decodes, hrhs.decodes]
  · rw [toJson]
    exact fits_object_cons hrest _ _

/-- A conjunction survives if its parts do. -/
theorem survives_and (hn : 0 < nesting) {parts : List Formula}
    (hparts : Survives (.list (decodeWithin Bool.true depth)) (.ofList toJson) (nesting - 1)
      parts) :
    Survives (decodeWithin inside (depth + 1)) toJson nesting (.and parts) := by
  have hrest : Fits nesting (.object [("conjuncts", .ofList toJson parts)]) :=
    fits_object hn (by simp [hparts.fits])
  have htagged := tagged?_object inside (show "and" ∈ kinds by simp [kinds]) (by simp) hrest
  refine ⟨?_, ?_⟩
  · simp only [toJson, array_allToJson, decodeWithin, htagged, Option.bind_eq_bind,
      Option.bind_some]
    rw [Record.of?_object hn (by decide) (by exact .refl _)]
    simp [hparts.decodes]
  · rw [toJson, array_allToJson]
    exact fits_object_cons hrest _ _

/-- A use of a constraint survives as a formula if it does on its own. -/
theorem survives_constraint {use : ConstraintUse}
    (huse : Survives ConstraintUse.decode ConstraintUse.toJson nesting use) :
    Survives (decodeWithin inside (depth + 1)) toJson nesting (.constraint use) := by
  have hrest : Fits nesting (.object use.members) := huse.fits
  have hread : ConstraintUse.decode nesting (.object use.members) = some use := huse.decodes
  have htagged := tagged?_object inside (show "constraint" ∈ kinds by simp [kinds])
    (by simp [ConstraintUse.members]) hrest
  refine ⟨?_, ?_⟩
  · simp [toJson, decodeWithin, htagged, hread]
  · rw [toJson]
    exact fits_object_cons hrest _ _

end Kinds

/-- Formulas that are read survive at an even number of levels. Every formula inside another one
takes two levels, so where a formula can be read at all, two levels are left, and there is room for
the lists in it. -/
theorem rewrites_decodeWithin (depth : Nat) (inside : Bool) {nesting : Nat}
    (heven : nesting % 2 = 0) : Rewrites (decodeWithin inside depth) toJson nesting := by
  induction depth generalizing inside nesting with
  | zero =>
    intro v f h
    cases h
  | succ depth ih =>
    intro v f h
    simp only [decodeWithin, Option.bind_eq_bind, Option.bind_eq_some_iff] at h
    obtain ⟨⟨kind, rest⟩, htagged, h⟩ := h
    have hpos := pos_of_tagged? htagged
    simp only at h
    split at h
    · split at h
      · cases h
      · cases h
        exact survives_true hpos
    · simp only [Option.bind_eq_some_iff] at h
      obtain ⟨r, hr, symbol, -, args, hargs, negated, -, h⟩ := h
      cases h
      obtain ⟨-, hnesting⟩ := Record.nesting_of_of? hr
      have hargs := Record.survives_optional_list hargs (by omega) (Term.rewrites_decode _)
      rw [hnesting] at hargs
      exact survives_atom hpos symbol negated hargs
    · simp only [Option.bind_eq_some_iff] at h
      obtain ⟨r, hr, op, -, lhs, hlhs, rhs, hrhs, h⟩ := h
      cases h
      obtain ⟨-, hnesting⟩ := Record.nesting_of_of? hr
      have hlhs := Record.survives_required hlhs (Term.rewrites_decode _)
      have hrhs := Record.survives_required hrhs (Term.rewrites_decode _)
      rw [hnesting] at hlhs hrhs
      exact survives_relation hpos op hlhs hrhs
    · simp only [Option.bind_eq_some_iff] at h
      obtain ⟨r, hr, parts, hparts, h⟩ := h
      cases h
      obtain ⟨-, hnesting⟩ := Record.nesting_of_of? hr
      -- The parts are two levels further in: inside the object, and inside the list.
      have hparts := Record.survives_required hparts
        (rewrites_list (ih Bool.true (show (r.nesting - 1) % 2 = 0 by omega)))
      rw [hnesting] at hparts
      exact survives_and hpos hparts
    · simp only [Option.bind_eq_some_iff] at h
      obtain ⟨use, huse, h⟩ := h
      cases h
      exact survives_constraint (ConstraintUse.rewrites_decode (by omega) rest use huse)
    · cases h

/-- Formulas that are read on their own survive at an even number of levels. -/
theorem rewrites_decode {nesting : Nat} (heven : nesting % 2 = 0) :
    Rewrites decode toJson nesting :=
  rewrites_decodeWithin maxNesting false heven

end Formula

/-! ### Actions -/

namespace Effect

/-- The members of a written effect. -/
def members (e : Effect) : List (String × Value) :=
  [("symbol", .string e.symbol), ("args", .ofList Term.toJson e.args)] ++
    Value.member? "value" (e.value.map Term.toJson) ++ [("negated", .bool e.negated)] ++
    Value.member? "condition" (e.condition.map Formula.toJson)

theorem toJson_eq (e : Effect) : e.toJson = .object e.members := by
  rw [toJson, members, Term.array_allToJson]

/-- The members of a written effect are fields in their order, some of which may be absent. -/
theorem of?_members {nesting : Nat} (hn : 0 < nesting) (e : Effect) :
    Record.of? ["symbol", "args", "value", "negated", "condition"] nesting (.object e.members)
      = some ⟨nesting - 1, e.members⟩ := by
  refine Record.of?_object hn (by decide) ?_
  obtain ⟨symbol, args, value, negated, condition⟩ := e
  cases value <;> cases condition <;> simp [members, Value.member?]

/-- Each field of an effect stands among its members, unless it is absent. -/
theorem lookup_members (e : Effect) :
    e.members.lookup "symbol" = some (.string e.symbol) ∧
    e.members.lookup "args" = some (.ofList Term.toJson e.args) ∧
    e.members.lookup "value" = e.value.map Term.toJson ∧
    e.members.lookup "negated" = some (.bool e.negated) ∧
    e.members.lookup "condition" = e.condition.map Formula.toJson := by
  obtain ⟨symbol, args, value, negated, condition⟩ := e
  cases value <;> cases condition <;> simp [members, Value.member?, List.lookup_cons]

/-- An effect survives if its arguments, its value and its condition do. -/
theorem survives {nesting : Nat} (hn : 0 < nesting) {e : Effect}
    (hargs : Survives (.list Term.decode) (.ofList Term.toJson) (nesting - 1) e.args)
    (hvalue : ∀ t ∈ e.value, Survives Term.decode Term.toJson (nesting - 1) t)
    (hcondition : ∀ f ∈ e.condition, Survives Formula.decode Formula.toJson (nesting - 1) f) :
    Survives decode toJson nesting e := by
  obtain ⟨hsymbol, hargs', hvalue', hnegated, hcondition'⟩ := lookup_members e
  refine ⟨?_, ?_⟩
  · have hvalue := Record.optional_nullable (r := ⟨nesting - 1, e.members⟩) hvalue'
      Term.toJson_ne_null hvalue
    have hcondition := Record.optional_nullable (r := ⟨nesting - 1, e.members⟩) hcondition'
      Formula.toJson_ne_null hcondition
    rw [toJson_eq, decode, of?_members hn e]
    simp only [Option.bind_eq_bind, Option.bind_some, hvalue, hcondition]
    simp [Record.required, Record.optional, hsymbol, hargs', hnegated, hargs.decodes]
  · have hvalue := fits_member? (fun t ht => (hvalue t ht).fits) "value"
    have hcondition := fits_member? (fun f hf => (hcondition f hf).fits) "condition"
    rw [toJson_eq]
    refine fits_object hn ?_
    simp only [members, List.forall_mem_append]
    exact ⟨⟨⟨by simp [hargs.fits], hvalue⟩, by simp⟩, hcondition⟩

/-- Effects that are read survive at an odd number of levels, if there is room for the lists in
them. -/
theorem rewrites_decode {nesting : Nat} (hodd : nesting % 2 = 1) (hn : 1 < nesting) :
    Rewrites decode toJson nesting := by
  intro v e h
  simp only [decode, Option.bind_eq_bind, Option.bind_eq_some_iff] at h
  obtain ⟨r, hr, symbol, -, args, hargs, value, hvalue, negated, -, condition, hcondition, h⟩ := h
  cases h
  obtain ⟨hpos, hnesting⟩ := Record.nesting_of_of? hr
  have hargs := Record.survives_optional_list hargs (by omega) (Term.rewrites_decode _)
  have hvalue := Record.survives_nullable hvalue (Term.rewrites_decode _)
  have hcondition := Record.survives_nullable hcondition (Formula.rewrites_decode (by omega))
  rw [hnesting] at hargs hvalue hcondition
  exact survives hpos hargs hvalue hcondition

end Effect

/-- Parameters of actions that are read survive. -/
theorem Parameter.rewrites_decode (nesting : Nat) : Rewrites decode toJson nesting := by
  intro v p h
  simp only [decode, Option.bind_eq_bind, Option.bind_eq_some_iff] at h
  obtain ⟨r, hr, name, -, type, -, h⟩ := h
  cases h
  obtain ⟨hpos, -⟩ := Record.nesting_of_of? hr
  refine ⟨?_, ?_⟩
  · rw [decode, toJson, Record.of?_object hpos (by decide) (by exact .refl _)]
    simp
  · rw [toJson]
    exact fits_object hpos (by simp)

/-- Actions that are read survive at an odd number of levels, if there is room for the effects in
them. -/
theorem Action.rewrites_decode {nesting : Nat} (hodd : nesting % 2 = 1) (hn : 3 < nesting) :
    Rewrites decode toJson nesting := by
  intro v a h
  simp only [decode, Option.bind_eq_bind, Option.bind_eq_some_iff] at h
  obtain ⟨r, hr, name, -, params, hparams, precondition, hprecondition, effects, heffects, h⟩ := h
  cases h
  obtain ⟨hpos, hnesting⟩ := Record.nesting_of_of? hr
  have hlevel : 0 < r.nesting := by omega
  have hparams := Record.survives_optional_list hparams hlevel (Parameter.rewrites_decode _)
  -- The precondition is read at an even number of levels.
  have hprecondition := Record.survives_optional hprecondition
    (Formula.rewrites_decode (by omega)) (Formula.survives_true hlevel)
  have heffects := Record.survives_optional_list heffects hlevel
    (Effect.rewrites_decode (by omega) (by omega))
  rw [hnesting] at hparams hprecondition heffects
  refine ⟨?_, ?_⟩
  · rw [decode, toJson, Record.of?_object hpos (by decide) (by exact .refl _)]
    simp [hparams.decodes, hprecondition.decodes, heffects.decodes]
  · rw [toJson]
    exact fits_object hpos (by simp [hparams.fits, hprecondition.fits, heffects.fits])

/-! ### Declarations and facts -/

/-- Types that are read survive. -/
theorem TypeDomain.rewrites_decode (nesting : Nat) : Rewrites decode toJson nesting := by
  intro v d h
  simp only [decode, Option.bind_eq_bind, Option.bind_eq_some_iff] at h
  obtain ⟨r, hr, name, -, objects, hobjects, h⟩ := h
  cases h
  obtain ⟨hpos, hnesting⟩ := Record.nesting_of_of? hr
  have hobjects : Survives (.list .string) Value.ofStrings _ _ :=
    Record.survives_required hobjects (rewrites_list fun _ s _ => survives_string _ s)
  rw [hnesting] at hobjects
  refine ⟨?_, ?_⟩
  · rw [decode, toJson, Record.of?_object hpos (by decide) (by exact .refl _)]
    simp [hobjects.decodes]
  · rw [toJson]
    exact fits_object hpos (by simp [hobjects.fits])

/-- Predicates that are read survive, if there is room for their parameters. -/
theorem PredicateSignature.rewrites_decode {nesting : Nat} (hn : 1 < nesting) :
    Rewrites decode toJson nesting := by
  intro v p h
  simp only [decode, Option.bind_eq_bind, Option.bind_eq_some_iff] at h
  obtain ⟨r, hr, name, -, params, hparams, h⟩ := h
  cases h
  obtain ⟨hpos, hnesting⟩ := Record.nesting_of_of? hr
  have hparams := survives_strings hparams (by omega)
  rw [hnesting] at hparams
  refine ⟨?_, ?_⟩
  · rw [decode, toJson, Record.of?_object hpos (by decide) (by exact .refl _)]
    simp [hparams.decodes]
  · rw [toJson]
    exact fits_object hpos (by simp [hparams.fits])

/-- Functions that are read survive, if there is room for their parameters. -/
theorem FunctionSignature.rewrites_decode {nesting : Nat} (hn : 1 < nesting) :
    Rewrites decode toJson nesting := by
  intro v f h
  simp only [decode, Option.bind_eq_bind, Option.bind_eq_some_iff] at h
  obtain ⟨r, hr, name, -, params, hparams, codomain, -, h⟩ := h
  cases h
  obtain ⟨hpos, hnesting⟩ := Record.nesting_of_of? hr
  have hparams := survives_strings hparams (by omega)
  rw [hnesting] at hparams
  refine ⟨?_, ?_⟩
  · rw [decode, toJson, Record.of?_object hpos (by decide) (by exact .refl _)]
    simp [hparams.decodes]
  · rw [toJson]
    exact fits_object hpos (by simp [hparams.fits])

namespace InitialFact

/-- A fact survives if its arguments do. -/
theorem survives {nesting : Nat} (hn : 0 < nesting) {fact : InitialFact}
    (hargs : Survives (.list .string) Value.ofStrings (nesting - 1) fact.args) :
    Survives decode toJson nesting fact := by
  cases fact with
  | atom symbol args negated =>
    have hargs : Survives (.list .string) Value.ofStrings (nesting - 1) args := hargs
    have hrest : Fits nesting (.object [("symbol", .string symbol),
        ("args", .ofStrings args), ("negated", .bool negated)]) :=
      fits_object hn (by simp [hargs.fits])
    have htagged := tagged?_object false (show "atom" ∈ ["atom", "assign"] by simp) (by simp) hrest
    refine ⟨?_, ?_⟩
    · simp only [toJson, decode, htagged, Option.bind_eq_bind, Option.bind_some]
      rw [Record.of?_object hn (by decide) (by exact .refl _)]
      simp [hargs.decodes]
    · exact fits_object_cons hrest _ _
  | assign symbol args value =>
    have hargs : Survives (.list .string) Value.ofStrings (nesting - 1) args := hargs
    have hrest : Fits nesting (.object [("symbol", .string symbol),
        ("args", .ofStrings args), ("value", .string value)]) :=
      fits_object hn (by simp [hargs.fits])
    have htagged := tagged?_object false (show "assign" ∈ ["atom", "assign"] by simp) (by simp)
      hrest
    refine ⟨?_, ?_⟩
    · simp only [toJson, decode, htagged, Option.bind_eq_bind, Option.bind_some]
      split
      · rename_i hkind
        exact absurd hkind (by decide)
      · rw [Record.of?_object hn (by decide) (by exact .refl _)]
        simp [decodeValue, hargs.decodes]
    · exact fits_object_cons hrest _ _

/-- Facts that are read survive, if there is room for their arguments. -/
theorem rewrites_decode {nesting : Nat} (hn : 1 < nesting) :
    Rewrites decode toJson nesting := by
  intro v fact h
  simp only [decode, Option.bind_eq_bind, Option.bind_eq_some_iff] at h
  obtain ⟨⟨kind, rest⟩, htagged, h⟩ := h
  have hpos := pos_of_tagged? htagged
  simp only at h
  split at h
  · simp only [Option.bind_eq_some_iff] at h
    obtain ⟨r, hr, symbol, -, args, hargs, negated, -, h⟩ := h
    cases h
    obtain ⟨-, hnesting⟩ := Record.nesting_of_of? hr
    have hargs := survives_strings hargs (by omega)
    rw [hnesting] at hargs
    exact survives hpos hargs
  · simp only [Option.bind_eq_some_iff] at h
    obtain ⟨r, hr, symbol, -, args, hargs, value, -, h⟩ := h
    cases h
    obtain ⟨-, hnesting⟩ := Record.nesting_of_of? hr
    have hargs := survives_strings hargs (by omega)
    rw [hnesting] at hargs
    exact survives hpos hargs

end InitialFact

/-! ### Tasks -/

namespace Task

/-- Tasks that are read survive, if they have no goal. -/
theorem survives_decode {nesting : Nat} (hodd : nesting % 2 = 1) (hn : 5 < nesting) {v : Value}
    {t : Task} (h : decode nesting v = some t) (hgoal : t.goal = none) :
    Survives decode toJson nesting t := by
  rw [decode] at h
  obtain ⟨r, hr, h⟩ := Option.bind_eq_some_iff.1 h
  obtain ⟨domain, -, h⟩ := Option.bind_eq_some_iff.1 h
  obtain ⟨instanceName, -, h⟩ := Option.bind_eq_some_iff.1 h
  obtain ⟨typeDomains, htypes, h⟩ := Option.bind_eq_some_iff.1 h
  obtain ⟨objects, hobjects, h⟩ := Option.bind_eq_some_iff.1 h
  obtain ⟨predicates, hpredicates, h⟩ := Option.bind_eq_some_iff.1 h
  obtain ⟨functions, hfunctions, h⟩ := Option.bind_eq_some_iff.1 h
  obtain ⟨actions, hactions, h⟩ := Option.bind_eq_some_iff.1 h
  obtain ⟨init, hinit, h⟩ := Option.bind_eq_some_iff.1 h
  obtain ⟨constraints, hconstraints, h⟩ := Option.bind_eq_some_iff.1 h
  obtain ⟨goal, -, h⟩ := Option.bind_eq_some_iff.1 h
  cases h
  obtain rfl : goal = none := hgoal
  obtain ⟨hpos, hnesting⟩ := Record.nesting_of_of? hr
  have hlevel : 0 < r.nesting := by omega
  have htypes := Record.survives_optional_list htypes hlevel (TypeDomain.rewrites_decode _)
  have hobjects := survives_strings hobjects hlevel
  have hpredicates := Record.survives_optional_list hpredicates hlevel
    (PredicateSignature.rewrites_decode (by omega))
  have hfunctions := Record.survives_optional_list hfunctions hlevel
    (FunctionSignature.rewrites_decode (by omega))
  have hactions := Record.survives_optional_list hactions hlevel
    (Action.rewrites_decode (by omega) (by omega))
  have hinit := Record.survives_optional_list hinit hlevel (InitialFact.rewrites_decode (by omega))
  have hconstraints := Record.survives_optional_list hconstraints hlevel
    (ConstraintUse.rewrites_decode (by omega))
  rw [hnesting] at htypes hobjects hpredicates hfunctions hactions hinit hconstraints
  refine ⟨?_, ?_⟩
  · -- All fields are written but the last one, the goal.
    rw [decode, toJson, Record.of?_object hpos (by decide)
      (by exact List.dropLast_sublist fieldNames)]
    simp [Value.member?, htypes.decodes, hobjects.decodes, hpredicates.decodes,
      hfunctions.decodes, hactions.decodes, hinit.decodes, hconstraints.decodes]
  · exact fits_object hpos (by simp [Value.member?, htypes.fits, hobjects.fits, hpredicates.fits,
      hfunctions.fits, hactions.fits, hinit.fits, hconstraints.fits])

/-- A task without a goal that is read is read again from the text that it is written as. This
holds on one line, and also where white space spreads the text over several. -/
theorem read_rewritten {text : String} {t : Task} (h : read text = .ok t) (hgoal : t.goal = none) :
    read t.print = .ok t ∧ read t.toJson.spread = .ok t := by
  have hread : parse? text = some t := by
    rw [read] at h
    split at h
    · rename_i htask
      cases h
      exact htask
    · cases h
  obtain ⟨v, -, hv⟩ := Option.bind_eq_some_iff.1 hread
  -- The limit on nesting is odd.
  have ht := survives_decode (by decide) (by decide) hv hgoal
  have hlayout : ∀ l : Layout, l.IsBlank →
      read (String.ofList (Printer.value l 0 t.toJson)) = .ok t := by
    intro l hl
    have hparse : parse? (String.ofList (Printer.value l 0 t.toJson)) = some t := by
      rw [parse?, Reader.read_print hl ht.fits.plain, Option.bind_some]
      exact ht.decodes
    rw [read, hparse]
  exact ⟨hlayout .compact Layout.isBlank_compact, hlayout .spread Layout.isBlank_spread⟩

/-- A task in arrays of fields, many of which are left out. The kind of an atom is given by its
position, members stand in front of the kind, and an assigned value is an integer. -/
def shorthand : Value :=
  .array [.string "d", .string "p", .array [], .array [], .array [], .array [],
    .array [.object [("effects", .array [.array [.string "at", .array [.string "?b"],
        .number (.integer (-1))]]),
      ("precondition", .object [("conjuncts", .array [
        .array [.number (.integer 1), .string "in", .array [.string "?b"]],
        .array [.string "relation", .string "<=",
          .object [("args", .array [.string "?b"]), ("symbol", .string "at")],
          .number (.integer 3)]]), ("kind", .string "and")]),
      ("name", .string "go"), ("params", .array [.array [.string "?b", .string "box"]])]],
    .array [.array [.string "assign", .string "at", .array [.string "a"], .number (.integer 3)]]]

/-- The task in `shorthand`, with all its fields. -/
def ofShorthand : Task where
  domain := "d"
  instanceName := "p"
  typeDomains := []
  objects := []
  predicates := []
  functions := []
  actions := [⟨"go", [⟨"?b", "box"⟩],
    .and [.atom "in" [.param "?b"] false,
      .relation .atMost (.app "at" [.param "?b"]) (.int 3)],
    [⟨"at", [.param "?b"], some (.int (-1)), false, none⟩]⟩]
  init := [.assign "at" ["a"] "3"]
  constraints := []
  goal := none

/-- What is read from the shorthand is read again once it is written in full. -/
theorem read_rewritten_ofShorthand :
    read shorthand.compact = .ok ofShorthand ∧ ofShorthand.goal = none ∧
    read ofShorthand.print = .ok ofShorthand ∧
    read ofShorthand.toJson.spread = .ok ofShorthand := by
  have hplain : shorthand.IsPlain := by
    simp only [shorthand, Value.IsPlain, ArePlain, MembersArePlain]
    decide
  have hread : read shorthand.compact = .ok ofShorthand := by
    rw [read, parse?, Value.compact, Reader.read_print Layout.isBlank_compact hplain]
    rfl
  exact ⟨hread, rfl, read_rewritten hread rfl⟩

end Task

end Grounder
