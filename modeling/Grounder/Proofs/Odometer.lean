import Grounder.Odometer
import Mathlib.Algebra.GroupWithZero.Nat
import Mathlib.Data.List.Forall2
import Mathlib.Data.List.Nodup

/-!
# `Grounder.Proofs.Odometer`: the odometer counts through the product

The positions of an odometer are the digits of a number in mixed radix, and `numeral` is that
number. One step of the odometer adds one to it (`numeral_advance`), so a run shows the tuples in
the order of their numerals. For the list of all tuples this gives:

* `length_tuples`: there are as many as the product has members.
* `getElem?_tuples`: the tuple at some positions stands at the numeral of the positions.
* `mem_tuples`: every tuple of the list comes from positions, so nothing else is in it.
* `nodup_of_nodup_tuples`: no tuple is listed twice only if no listing has an object twice.
* `firstRepeat_of_tuples`: the first tuple of the list that is there already stands at the first
  positions, in lexicographic order, that show the tuple of earlier ones.

Listings may be empty and there may be none of them. In the first case there is no tuple, in the
second the empty tuple is the only one.
-/

set_option autoImplicit false

namespace Grounder

namespace Odometer

/-- The number whose digits are the positions. The first place weighs most. -/
def numeral : List (List String) → List Nat → Nat
  | _ :: ds, p :: ps => p * tupleCount ds + numeral ds ps
  | _, _ => 0

/-- Positions that lie in the listings, one for each of them. -/
def Within (domains : List (List String)) (positions : List Nat) : Prop :=
  List.Forall₂ (fun d p => p < d.length) domains positions

/-- A further listing multiplies the tuples. -/
theorem tupleCount_cons (d : List String) (ds : List (List String)) :
    tupleCount (d :: ds) = d.length * tupleCount ds := rfl

/-- The numeral is the sum of the positions, each times the weight of its place. -/
theorem numeral_eq_sum (domains : List (List String)) (positions : List Nat) :
    numeral domains positions = (List.zipWith (· * ·) positions (placeWeights domains)).sum := by
  induction domains generalizing positions with
  | nil => cases positions <;> rfl
  | cons d ds ih =>
    cases positions with
    | nil => rfl
    | cons p ps =>
      rw [numeral, placeWeights, List.zipWith_cons_cons, List.sum_cons, ih]

/-! ### Tuples and positions -/

/-- Positions show a tuple exactly when they lie in the listings. -/
theorem tuple?_isSome (domains : List (List String)) (positions : List Nat) :
    (tuple? domains positions).isSome = true ↔ Within domains positions := by
  induction domains generalizing positions with
  | nil =>
    cases positions with
    | nil => simp [tuple?, Within]
    | cons p ps => simp [tuple?, Within]
  | cons d ds ih =>
    cases positions with
    | nil => simp [tuple?, Within]
    | cons p ps =>
      rw [Within, List.forall₂_cons, ← Within, ← ih]
      cases hobject : d[p]? with
      | none =>
        have hp : d.length ≤ p := List.getElem?_eq_none_iff.1 hobject
        simp only [tuple?, hobject, Option.isSome_none]
        constructor
        · intro h
          cases h
        · rintro ⟨h, -⟩
          omega
      | some object =>
        have hp : p < d.length := (List.getElem?_eq_some_iff.1 hobject).1
        cases hrest : tuple? ds ps <;> simp [tuple?, hrest, hp]

/-- Positions that show a tuple lie in the listings. -/
theorem within_of_tuple? {domains : List (List String)} {positions : List Nat}
    {tuple : List String} (h : tuple? domains positions = some tuple) :
    Within domains positions := by
  rw [← tuple?_isSome, h]
  rfl

/-- A tuple is shown place by place. -/
theorem tuple?_cons_eq_some {d : List String} {ds : List (List String)} {positions : List Nat}
    {tuple : List String} : tuple? (d :: ds) positions = some tuple ↔
      ∃ p ps object rest, positions = p :: ps ∧ tuple = object :: rest ∧ d[p]? = some object ∧
        tuple? ds ps = some rest := by
  constructor
  · intro h
    cases positions with
    | nil => cases h
    | cons p ps =>
      rw [tuple?] at h
      split at h
      · rename_i object rest hobject hrest
        cases h
        exact ⟨p, ps, object, rest, rfl, rfl, hobject, hrest⟩
      · cases h
  · rintro ⟨p, ps, object, rest, rfl, rfl, hobject, hrest⟩
    rw [tuple?, hobject, hrest]

/-- A tuple that positions show has its objects in the listings, and every such tuple is shown. -/
theorem exists_tuple? (domains : List (List String)) (tuple : List String) :
    (∃ positions, tuple? domains positions = some tuple)
      ↔ List.Forall₂ (fun d object => object ∈ d) domains tuple := by
  induction domains generalizing tuple with
  | nil =>
    constructor
    · rintro ⟨positions, h⟩
      cases positions with
      | nil => cases h; exact .nil
      | cons p ps => cases h
    · intro h
      cases h
      exact ⟨[], rfl⟩
  | cons d ds ih =>
    constructor
    · rintro ⟨positions, h⟩
      obtain ⟨p, ps, object, rest, rfl, rfl, hobject, hrest⟩ := tuple?_cons_eq_some.1 h
      exact .cons (List.mem_of_getElem? hobject) ((ih rest).1 ⟨ps, hrest⟩)
    · rintro (_ | ⟨hmem, hrest⟩)
      obtain ⟨p, hp, rfl⟩ := List.mem_iff_getElem.1 hmem
      obtain ⟨ps, hps⟩ := (ih _).2 hrest
      refine ⟨p :: ps, ?_⟩
      rw [tuple?, List.getElem?_eq_getElem hp, hps]

/-! ### Numerals -/

/-- The numeral of positions in the listings is below the number of tuples. -/
theorem numeral_lt {domains : List (List String)} {positions : List Nat}
    (h : Within domains positions) : numeral domains positions < tupleCount domains := by
  induction h with
  | nil => exact Nat.one_pos
  | @cons d p ds ps hp _ ih =>
    rw [numeral, tupleCount_cons]
    calc p * tupleCount ds + numeral ds ps
        < p * tupleCount ds + tupleCount ds := Nat.add_lt_add_left ih _
      _ = (p + 1) * tupleCount ds := (Nat.succ_mul p _).symm
      _ ≤ d.length * tupleCount ds := Nat.mul_le_mul_right _ hp

/-- Different positions in the listings have different numerals. -/
theorem numeral_injective {domains : List (List String)} {ps qs : List Nat}
    (hps : Within domains ps) (hqs : Within domains qs)
    (h : numeral domains ps = numeral domains qs) : ps = qs := by
  induction hps generalizing qs with
  | nil =>
    cases hqs
    rfl
  | @cons d p ds ps hp hps ih =>
    cases hqs with
    | @cons _ q _ qs hq hqs =>
      rw [numeral, numeral] at h
      have hlt := numeral_lt hps
      have hlt' := numeral_lt hqs
      -- The first digit is the quotient by the weight of its place, the others are the remainder.
      have hfirst : p = q := by
        have hquot (k r : Nat) (hr : r < tupleCount ds) :
            (k * tupleCount ds + r) / tupleCount ds = k := by
          rw [Nat.mul_comm, Nat.mul_add_div (by omega), Nat.div_eq_of_lt hr, Nat.add_zero]
        rw [← hquot p _ hlt, h, hquot q _ hlt']
      subst hfirst
      rw [ih hqs (by omega)]

/-- Numerals come in the lexicographic order of the positions. -/
theorem numeral_lt_iff {domains : List (List String)} {ps qs : List Nat}
    (hps : Within domains ps) (hqs : Within domains qs) :
    numeral domains ps < numeral domains qs ↔ List.Lex (· < ·) ps qs := by
  induction hps generalizing qs with
  | nil =>
    cases hqs
    simp [numeral]
  | @cons d p ds ps hp hps ih =>
    cases hqs with
    | @cons _ q _ qs hq hqs =>
      rw [numeral, numeral, List.cons_lex_cons_iff, ← ih hqs]
      have hlt := numeral_lt hps
      have hlt' := numeral_lt hqs
      -- The places behind the first one never make up for a difference there.
      rcases Nat.lt_trichotomy p q with h | rfl | h
      · have hweight := Nat.mul_le_mul_right (tupleCount ds) (Nat.succ_le_of_lt h)
        rw [Nat.succ_mul] at hweight
        simp only [h, true_or, iff_true]
        omega
      · simp only [Nat.lt_irrefl, false_or, true_and, Nat.add_lt_add_iff_left]
      · have hweight := Nat.mul_le_mul_right (tupleCount ds) (Nat.succ_le_of_lt h)
        rw [Nat.succ_mul] at hweight
        simp only [Nat.lt_asymm h, Nat.ne_of_gt h, false_and, or_false, iff_false]
        omega

/-- Every number below that of the tuples is the numeral of some positions. -/
theorem exists_numeral_eq {domains : List (List String)} {n : Nat} (h : n < tupleCount domains) :
    ∃ positions, Within domains positions ∧ numeral domains positions = n := by
  induction domains generalizing n with
  | nil => exact ⟨[], .nil, (Nat.lt_one_iff.1 h).symm⟩
  | cons d ds ih =>
    rw [tupleCount_cons] at h
    have hpos : 0 < tupleCount ds := Nat.pos_of_ne_zero fun hzero => by simp [hzero] at h
    obtain ⟨ps, hps, hrest⟩ := ih (Nat.mod_lt n hpos)
    refine ⟨n / tupleCount ds :: ps, .cons ((Nat.div_lt_iff_lt_mul hpos).2 h) hps, ?_⟩
    rw [numeral, hrest, Nat.div_add_mod']

/-- The number that one step of the odometer leads to: one more than before, or zero after the last
tuple. -/
theorem numeral_advance {domains : List (List String)} {positions : List Nat}
    (h : Within domains positions) :
    Within domains (advance domains positions).1 ∧
      if (advance domains positions).2 then
        numeral domains positions + 1 = tupleCount domains ∧
          numeral domains (advance domains positions).1 = 0
      else
        numeral domains (advance domains positions).1 = numeral domains positions + 1 := by
  induction h with
  | nil => exact ⟨.nil, rfl, rfl⟩
  | @cons d p ds ps hp _ ih =>
    obtain ⟨hwithin, hcount⟩ := ih
    cases hadv : advance ds ps with
    | mk ps' wrapped =>
      rw [hadv] at hwithin hcount
      cases wrapped with
      | false =>
        -- A later place has turned, and this one stands still.
        have hcount : numeral ds ps' = numeral ds ps + 1 := hcount
        simp only [advance, hadv]
        refine ⟨.cons hp hwithin, ?_⟩
        show p * tupleCount ds + numeral ds ps' = p * tupleCount ds + numeral ds ps + 1
        omega
      | true =>
        -- All later places have begun again, so this one turns, or begins again itself.
        obtain ⟨hlast, hzero⟩ : numeral ds ps + 1 = tupleCount ds ∧ numeral ds ps' = 0 := hcount
        by_cases hnext : p + 1 < d.length
        · simp only [advance, hadv, if_pos hnext]
          refine ⟨.cons hnext hwithin, ?_⟩
          show (p + 1) * tupleCount ds + numeral ds ps' = p * tupleCount ds + numeral ds ps + 1
          rw [Nat.succ_mul]
          omega
        · simp only [advance, hadv, if_neg hnext]
          have hd : d.length = p + 1 := by omega
          refine ⟨.cons (by omega) hwithin, ?_, ?_⟩
          · show p * tupleCount ds + numeral ds ps + 1 = d.length * tupleCount ds
            rw [hd, Nat.succ_mul]
            omega
          · show 0 * tupleCount ds + numeral ds ps' = 0
            rw [Nat.zero_mul, hzero]

/-! ### Runs -/

/-- A run that does not stop early shows a tuple at every step. -/
theorem length_run (limit : Nat) {domains : List (List String)} {positions : List Nat}
    (h : Within domains positions)
    (hlimit : numeral domains positions + limit ≤ tupleCount domains) :
    (run limit ⟨domains, positions, false⟩).length = limit := by
  induction limit generalizing positions with
  | zero => rfl
  | succ limit ih =>
    obtain ⟨tuple, htuple⟩ := Option.isSome_iff_exists.1 ((tuple?_isSome domains positions).2 h)
    obtain ⟨hwithin, hcount⟩ := numeral_advance h
    rw [run, next?, if_neg Bool.false_ne_true, htuple]
    simp only [Option.map_some, List.length_cons]
    cases hwrapped : (advance domains positions).2 with
    | false =>
      rw [hwrapped, if_neg (by decide)] at hcount
      rw [ih hwithin (by omega)]
    | true =>
      -- Past the last tuple there is nothing left to show, and nothing is asked for.
      rw [hwrapped, if_pos rfl] at hcount
      obtain rfl : limit = 0 := by omega
      rfl

/-- A run shows the tuple with a given numeral at the step that many counts further. -/
theorem getElem?_run (limit : Nat) {domains : List (List String)} {start positions : List Nat}
    (hstart : Within domains start) (h : Within domains positions)
    (hle : numeral domains start ≤ numeral domains positions)
    (hlt : numeral domains positions < numeral domains start + limit) :
    (run limit ⟨domains, start, false⟩)[numeral domains positions - numeral domains start]?
      = tuple? domains positions := by
  induction limit generalizing start with
  | zero => omega
  | succ limit ih =>
    obtain ⟨tuple, htuple⟩ := Option.isSome_iff_exists.1 ((tuple?_isSome domains start).2 hstart)
    obtain ⟨hwithin, hcount⟩ := numeral_advance hstart
    rw [run, next?, if_neg Bool.false_ne_true, htuple]
    simp only [Option.map_some]
    -- The tuple asked for is the one shown now, or is shown by the rest of the run.
    rcases Nat.eq_or_lt_of_le hle with heq | hlt'
    · rw [← numeral_injective hstart h heq, Nat.sub_self, htuple]
      rfl
    · have hbelow := numeral_lt h
      cases hwrapped : (advance domains start).2 with
      | true =>
        rw [hwrapped, if_pos rfl] at hcount
        omega
      | false =>
        rw [hwrapped, if_neg (by decide)] at hcount
        obtain ⟨k, hk⟩ : ∃ k, numeral domains positions - numeral domains start = k + 1 :=
          ⟨numeral domains positions - numeral domains start - 1, by omega⟩
        rw [hk, List.getElem?_cons_succ, ← ih hwithin (by omega) (by omega), hcount]
        congr 1
        omega

/-- A run shows tuples at positions of the listings only. -/
theorem mem_run {limit : Nat} {o : Odometer} {tuple : List String} (h : tuple ∈ run limit o) :
    ∃ positions, tuple? o.domains positions = some tuple := by
  induction limit generalizing o with
  | zero => cases h
  | succ limit ih =>
    rw [run] at h
    split at h
    · rename_i shown o' hnext
      rw [next?] at hnext
      split at hnext
      · cases hnext
      · obtain ⟨tuple', htuple', hshown⟩ := Option.map_eq_some_iff.1 hnext
        cases hshown
        rcases List.mem_cons.1 h with rfl | h
        · exact ⟨o.positions, htuple'⟩
        · obtain ⟨positions, hpositions⟩ := ih h
          exact ⟨positions, hpositions⟩
    · cases h

/-! ### All tuples -/

/-- Over an empty listing, there is nothing to count. -/
theorem tupleCount_eq_zero {domains : List (List String)} (h : [] ∈ domains) :
    tupleCount domains = 0 := by
  induction domains with
  | nil => cases h
  | cons d ds ih =>
    rw [tupleCount_cons]
    rcases List.mem_cons.1 h with rfl | hds
    · rw [List.length_nil, Nat.zero_mul]
    · rw [ih hds, Nat.mul_zero]

/-- Without empty listings, the odometer starts at the first tuple. -/
theorem within_start {domains : List (List String)} (h : [] ∉ domains) :
    Within domains (domains.map fun _ => 0) ∧ numeral domains (domains.map fun _ => 0) = 0 := by
  induction domains with
  | nil => exact ⟨.nil, rfl⟩
  | cons d ds ih =>
    rw [List.mem_cons, not_or] at h
    obtain ⟨hwithin, hzero⟩ := ih h.2
    have hd : 0 < d.length := List.length_pos_iff.2 (Ne.symm h.1)
    rw [List.map_cons]
    refine ⟨.cons hd hwithin, ?_⟩
    rw [numeral, hzero, Nat.zero_mul]

/-- Without empty listings, the odometer is not finished at the start. -/
theorem start_eq {domains : List (List String)} (h : [] ∉ domains) :
    start domains = ⟨domains, domains.map fun _ => 0, false⟩ := by
  have hfilled : domains.any List.isEmpty = false := by
    rw [List.any_eq_false]
    intro d hd hempty
    exact h (List.isEmpty_iff.1 hempty ▸ hd)
  rw [start, hfilled]

/-- There are as many tuples as the product of the listings has members. -/
theorem length_tuples (domains : List (List String)) :
    (tuples domains).length = tupleCount domains := by
  by_cases hempty : [] ∈ domains
  · rw [tuples, tupleCount_eq_zero hempty]
    rfl
  · obtain ⟨hwithin, hzero⟩ := within_start hempty
    rw [tuples, start_eq hempty]
    exact length_run _ hwithin (by omega)

/-- The tuple at some positions stands at the numeral of the positions. -/
theorem getElem?_tuples {domains : List (List String)} {positions : List Nat}
    (h : Within domains positions) :
    (tuples domains)[numeral domains positions]? = tuple? domains positions := by
  have hlt := numeral_lt h
  by_cases hempty : [] ∈ domains
  · rw [tupleCount_eq_zero hempty] at hlt
    omega
  · obtain ⟨hwithin, hzero⟩ := within_start hempty
    have hrun := getElem?_run (tupleCount domains) hwithin h (by omega) (by omega)
    rw [hzero, Nat.sub_zero] at hrun
    rw [tuples, start_eq hempty]
    exact hrun

/-- A tuple is listed exactly when some positions show it. -/
theorem mem_tuples {domains : List (List String)} {tuple : List String} :
    tuple ∈ tuples domains ↔ ∃ positions, tuple? domains positions = some tuple := by
  constructor
  · exact mem_run
  · rintro ⟨positions, h⟩
    exact List.mem_of_getElem? ((getElem?_tuples (within_of_tuple? h)).trans h)

/-- There is no tuple over an empty listing. -/
theorem tuples_eq_nil {domains : List (List String)} (h : [] ∈ domains) :
    tuples domains = [] := by
  rw [← List.length_eq_zero_iff, length_tuples, tupleCount_eq_zero h]

/-! ### Repeated tuples -/

/-- If no tuple is listed twice, different positions show different tuples. -/
theorem eq_of_tuple?_eq {domains : List (List String)} (h : (tuples domains).Nodup)
    {ps qs : List Nat} {tuple : List String} (hps : tuple? domains ps = some tuple)
    (hqs : tuple? domains qs = some tuple) : ps = qs := by
  have hwithin := within_of_tuple? hps
  have hwithin' := within_of_tuple? hqs
  have hget := (getElem?_tuples hwithin).trans hps
  have hget' := (getElem?_tuples hwithin').trans hqs
  obtain ⟨hlt, hget⟩ := List.getElem?_eq_some_iff.1 hget
  obtain ⟨hlt', hget'⟩ := List.getElem?_eq_some_iff.1 hget'
  exact numeral_injective hwithin hwithin' (h.getElem_inj_iff.1 (hget.trans hget'.symm))

/-- A listing with a repetition leads to tuples that are listed twice, unless there are none. -/
theorem nodup_of_nodup_tuples {domains : List (List String)} (h : (tuples domains).Nodup)
    (hempty : [] ∉ domains) {d : List String} (hd : d ∈ domains) : d.Nodup := by
  -- In this form the hypothesis passes to the places behind the first one.
  have hinj : ∀ ps qs tuple, tuple? domains ps = some tuple → tuple? domains qs = some tuple →
      ps = qs := fun ps qs tuple => eq_of_tuple?_eq h
  clear h
  induction domains with
  | nil => cases hd
  | cons first ds ih =>
    rw [List.mem_cons, not_or] at hempty
    rcases List.mem_cons.1 hd with rfl | hd
    · obtain ⟨rest, hrest⟩ := Option.isSome_iff_exists.1
        ((tuple?_isSome ds _).2 (within_start hempty.2).1)
      rw [List.nodup_iff_getElem?_ne_getElem?]
      intro i j hij hj heq
      have hget : d[j]? = some d[j] := List.getElem?_eq_getElem hj
      have hsame := hinj (i :: _) (j :: _) (d[j] :: rest) (by rw [tuple?, heq, hget, hrest])
        (by rw [tuple?, hget, hrest])
      have hij' : i = j := (List.cons.inj hsame).1
      omega
    · refine ih hempty.2 hd fun ps qs tuple hps hqs => ?_
      cases first with
      | nil => exact absurd rfl hempty.1
      | cons object _ =>
        have hsame := hinj (0 :: ps) (0 :: qs) (object :: tuple) (by simp [tuple?, hps])
          (by simp [tuple?, hqs])
        exact (List.cons.inj hsame).2

/-- Positions that show the tuple of earlier ones. The earlier ones come first in lexicographic
order. -/
def ShowsAgain (domains : List (List String)) (positions : List Nat) : Prop :=
  ∃ earlier tuple, List.Lex (· < ·) earlier positions ∧ tuple? domains earlier = some tuple ∧
    tuple? domains positions = some tuple

/-- The tuple that is shown again before any other one is. -/
def FirstRepeat (domains : List (List String)) (tuple : List String) : Prop :=
  ∃ positions, tuple? domains positions = some tuple ∧ ShowsAgain domains positions ∧
    ∀ earlier, List.Lex (· < ·) earlier positions → ¬ ShowsAgain domains earlier

/-- If no listing has an object twice, different positions show different tuples. -/
theorem tuple?_injective {domains : List (List String)} (h : ∀ d ∈ domains, d.Nodup)
    {ps qs : List Nat} {tuple : List String} (hps : tuple? domains ps = some tuple)
    (hqs : tuple? domains qs = some tuple) : ps = qs := by
  induction domains generalizing ps qs tuple with
  | nil =>
    cases ps with
    | nil =>
      cases qs with
      | nil => rfl
      | cons q qs => cases hqs
    | cons p ps => cases hps
  | cons d ds ih =>
    rw [List.forall_mem_cons] at h
    obtain ⟨p, ps, object, rest, rfl, rfl, hp, hps⟩ := tuple?_cons_eq_some.1 hps
    obtain ⟨q, qs, _, _, rfl, heq, hq, hqs⟩ := tuple?_cons_eq_some.1 hqs
    cases heq
    obtain ⟨hlt, -⟩ := List.getElem?_eq_some_iff.1 hp
    rw [(List.getElem?_inj hlt h.1).1 (hp.trans hq.symm), ih h.2 hps hqs]

/-- A tuple is shown again only if some listing has an object twice, and there is a tuple only if
no listing is empty. -/
theorem ShowsAgain.exists_not_nodup {domains : List (List String)} {positions : List Nat}
    (h : ShowsAgain domains positions) : [] ∉ domains ∧ ∃ d ∈ domains, ¬ d.Nodup := by
  obtain ⟨earlier, tuple, hearlier, hshown, hagain⟩ := h
  constructor
  · intro hempty
    have hmem := mem_tuples.2 ⟨positions, hagain⟩
    rw [tuples_eq_nil hempty] at hmem
    cases hmem
  · by_contra hnodup
    push Not at hnodup
    rw [tuple?_injective hnodup hshown hagain] at hearlier
    exact List.lex_irrefl Nat.lt_irrefl positions hearlier

/-- There is a first tuple that is shown again only if some listing has an object twice. -/
theorem FirstRepeat.exists_not_nodup {domains : List (List String)} {tuple : List String}
    (h : FirstRepeat domains tuple) : [] ∉ domains ∧ ∃ d ∈ domains, ¬ d.Nodup := by
  obtain ⟨positions, -, hagain, -⟩ := h
  exact hagain.exists_not_nodup

/-- The first tuple of the list that is there already is the first one that is shown again. -/
theorem firstRepeat_of_tuples {domains : List (List String)} {before after : List (List String)}
    {tuple : List String} (h : tuples domains = before ++ tuple :: after) (hnodup : before.Nodup)
    (hmem : tuple ∈ before) : FirstRepeat domains tuple := by
  have hlength : before.length < tupleCount domains := by
    rw [← length_tuples, h, List.length_append, List.length_cons]
    omega
  obtain ⟨positions, hwithin, hnumeral⟩ := exists_numeral_eq hlength
  have hshown : tuple? domains positions = some tuple := by
    rw [← getElem?_tuples hwithin, h, hnumeral, List.getElem?_append_right (Nat.le_refl _),
      Nat.sub_self, List.getElem?_cons_zero]
  -- What stands before the tuple is shown at earlier positions, and at these only.
  have hbefore {ps : List Nat} (hps : Within domains ps)
      (hlt : List.Lex (· < ·) ps positions) :
      numeral domains ps < before.length ∧
        before[numeral domains ps]? = tuple? domains ps := by
    rw [← numeral_lt_iff hps hwithin, hnumeral] at hlt
    refine ⟨hlt, ?_⟩
    rw [← getElem?_tuples hps, h, List.getElem?_append_left hlt]
  refine ⟨positions, hshown, ?_, ?_⟩
  · obtain ⟨i, hi, hget⟩ := List.mem_iff_getElem.1 hmem
    obtain ⟨earlier, hearlier, rfl⟩ := exists_numeral_eq (Nat.lt_trans hi hlength)
    have hlex : List.Lex (· < ·) earlier positions :=
      (numeral_lt_iff hearlier hwithin).1 (hnumeral ▸ hi)
    refine ⟨earlier, tuple, hlex, ?_, hshown⟩
    rw [← (hbefore hearlier hlex).2, List.getElem?_eq_getElem hi, hget]
  · rintro second hsecond ⟨first, other, hfirst, hshows, hagain⟩
    have hwithin₁ := within_of_tuple? hshows
    have hwithin₂ := within_of_tuple? hagain
    have hlt := (numeral_lt_iff hwithin₁ hwithin₂).2 hfirst
    obtain ⟨hlt₂, hget₂⟩ := hbefore hwithin₂ hsecond
    have hlex : List.Lex (· < ·) first positions := by
      rw [← numeral_lt_iff hwithin₁ hwithin, hnumeral]
      omega
    obtain ⟨hlt₁, hget₁⟩ := hbefore hwithin₁ hlex
    have hsame : before[numeral domains first]? = before[numeral domains second]? := by
      rw [hget₁, hget₂, hshows, hagain]
    exact Nat.ne_of_lt hlt ((List.getElem?_inj hlt₁ hnodup).1 hsame)

/-- There is one first tuple that is shown again. -/
theorem FirstRepeat.unique {domains : List (List String)} {tuple tuple' : List String}
    (h : FirstRepeat domains tuple) (h' : FirstRepeat domains tuple') : tuple = tuple' := by
  obtain ⟨positions, hshown, hagain, hfirst⟩ := h
  obtain ⟨positions', hshown', hagain', hfirst'⟩ := h'
  have hwithin := within_of_tuple? hshown
  have hwithin' := within_of_tuple? hshown'
  obtain rfl : positions = positions' := by
    refine numeral_injective hwithin hwithin' (Nat.le_antisymm ?_ ?_)
    · exact Nat.le_of_not_lt fun hlt =>
        hfirst positions' ((numeral_lt_iff hwithin' hwithin).1 hlt) hagain'
    · exact Nat.le_of_not_lt fun hlt =>
        hfirst' positions ((numeral_lt_iff hwithin hwithin').1 hlt) hagain
  exact Option.some.inj (hshown.symm.trans hshown')

end Odometer

end Grounder
