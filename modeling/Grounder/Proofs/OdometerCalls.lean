import Grounder.Proofs.Odometer
import Mathlib.Algebra.BigOperators.Group.List.Basic
import Mathlib.Data.List.Induction

/-!
# `Grounder.Proofs.OdometerCalls`: an odometer that is called until it stops

`Odometer.next?` answers nothing after the last tuple, and it would do so as well at positions
outside the listings. The two are told apart by `call?`, which is one call on positions in place:
the loop goes from the last place to the first, with the flag `finished` raised until a place has
room to turn (`carryFrom?`), and every access is checked. The loop does what the recursion of
`advance` does (`carryFrom?_eq`), so on positions that are as many as the listings a call does what
`next?` does (`call?_eq`).

`IsAfter` is what calls keep: before the last tuple has been passed, the numeral of the positions is
the number of the calls so far, and afterwards the odometer is finished. One call keeps it
(`IsAfter.call`, `IsAfter.call_finished`), and so do all of them (`isAfter_after?`). The digits of the numeral are quotients
by the weights of the places (`getElem?_of_numeral`), and these say which object each place shows.

`calls_enumerate_product` collects what the calls answer, one by one and without an end.
-/

set_option autoImplicit false

namespace Grounder

namespace Odometer

/-! ### Calls in place -/

/-- Turns the first `left` places, the last of them first, until one has room to turn. It answers
the positions after that and whether no place had room, or nothing if an access is out of range. -/
def carryFrom? (domains : List (List String)) (positions : List Nat) :
    (left : Nat) → Option (List Nat × Bool)
  | 0 => some (positions, true)
  | place + 1 => do
    let p ← positions[place]?
    let d ← domains[place]?
    if p + 1 < d.length then return (positions.set place (p + 1), false)
    else carryFrom? domains (positions.set place 0) place

/-- The objects at the positions, or nothing if an access is out of range. -/
def shown? (o : Odometer) : Option (List String) :=
  (List.zip o.positions o.domains).mapM fun (p, d) => d[p]?

/-- One call: what it answers and the odometer that it leaves, or nothing if an access is out of
range. -/
def call? (o : Odometer) : Option (Option (List String) × Odometer) :=
  if o.finished then some (none, o)
  else do
    let tuple ← o.shown?
    let (positions, finished) ← carryFrom? o.domains o.positions o.positions.length
    return (some tuple, { o with positions, finished })

/-- The odometer over some listings after a number of calls, or nothing if an access was out of
range. -/
def after? (domains : List (List String)) : (calls : Nat) → Option Odometer
  | 0 => some (start domains)
  | calls + 1 => do
    let o ← after? domains calls
    let (_, o') ← o.call?
    return o'

variable {domains : List (List String)} {positions : List Nat} {o : Odometer} {n : Nat}

/-- The last place turns first, and the places before it turn if it begins again. -/
theorem advance_concat (ds : List (List String)) (d : List String) (ps : List Nat) (p : Nat)
    (hlength : ps.length = ds.length) :
    advance (ds ++ [d]) (ps ++ [p]) =
      if p + 1 < d.length then (ps ++ [p + 1], false)
      else ((advance ds ps).1 ++ [0], (advance ds ps).2) := by
  induction ds generalizing ps with
  | nil =>
    obtain rfl := List.length_eq_zero_iff.1 hlength
    rfl
  | cons d' ds ih =>
    cases ps with
    | nil => cases hlength
    | cons p' ps =>
      rw [List.cons_append, List.cons_append, advance, ih ps (Nat.succ.inj hlength)]
      by_cases hroom : p + 1 < d.length
      · rw [if_pos hroom, if_pos hroom, List.cons_append]
      · rw [if_neg hroom, if_neg hroom, advance]
        -- The first place turns by the flag of the places between it and the last one.
        cases advance ds ps with
        | mk ps' wrapped =>
          cases wrapped with
          | false => rfl
          | true =>
            by_cases hroom' : p' + 1 < d'.length
            · simp only [if_pos hroom', List.cons_append]
            · simp only [if_neg hroom', List.cons_append]

/-- The loop does to the places that are left what the recursion does, and leaves those behind them
as they are. -/
theorem carryFrom?_append (ds es : List (List String)) (ps qs : List Nat)
    (hlength : ps.length = ds.length) :
    carryFrom? (ds ++ es) (ps ++ qs) ps.length =
      some ((advance ds ps).1 ++ qs, (advance ds ps).2) := by
  induction ds using List.reverseRecOn generalizing ps qs es with
  | nil =>
    obtain rfl := List.length_eq_zero_iff.1 hlength
    rfl
  | append_singleton ds d ih =>
    obtain rfl | ⟨ps, p, rfl⟩ := List.eq_nil_or_concat ps
    · simp at hlength
    rw [List.concat_eq_append] at hlength ⊢
    have hlength : ps.length = ds.length := by simpa using hlength
    have hp : (ps ++ [p] ++ qs)[ps.length]? = some p := by simp
    have hd : (ds ++ [d] ++ es)[ps.length]? = some d := by simp [hlength]
    have hset (q : Nat) : (ps ++ [p] ++ qs).set ps.length q = ps ++ ([q] ++ qs) := by simp
    rw [List.length_append, List.length_singleton, carryFrom?, hp, hd, advance_concat ds d ps p
      hlength]
    simp only [Option.bind_eq_bind, Option.bind_some, hset, Option.pure_def]
    split
    · simp
    · rw [List.append_assoc, ih ([d] ++ es) ps ([0] ++ qs) hlength]
      simp

/-- The loop over all places does what the recursion does. -/
theorem carryFrom?_eq (hlength : positions.length = domains.length) :
    carryFrom? domains positions positions.length = some (advance domains positions) := by
  have happend := carryFrom?_append domains [] positions [] hlength
  rwa [List.append_nil, List.append_nil, List.append_nil] at happend

/-- Looking up the places one by one shows the tuple. -/
theorem shown?_eq (domains : List (List String)) (positions : List Nat) (finished : Bool)
    (hlength : positions.length = domains.length) :
    shown? ⟨domains, positions, finished⟩ = tuple? domains positions := by
  induction domains generalizing positions with
  | nil =>
    obtain rfl := List.length_eq_zero_iff.1 hlength
    rfl
  | cons d ds ih =>
    cases positions with
    | nil => cases hlength
    | cons p ps =>
      have hrest := ih ps (Nat.succ.inj hlength)
      rw [shown?] at hrest ⊢
      rw [List.zip_cons_cons, List.mapM_cons, hrest, tuple?]
      show (d[p]?.bind fun object => (tuple? ds ps).bind fun rest => some (object :: rest)) = _
      cases d[p]? with
      | none => rfl
      | some object => cases tuple? ds ps <;> rfl

/-- A call does what `next?` does, if there are as many positions as listings. -/
theorem call?_eq (hlength : o.positions.length = o.domains.length) :
    o.call? = if o.finished then some (none, o)
      else o.next?.map fun (tuple, o') => (some tuple, o') := by
  rw [call?, next?]
  split
  · rfl
  · rw [shown?_eq _ _ _ hlength, carryFrom?_eq hlength]
    cases tuple? o.domains o.positions <;> rfl

/-! ### Digits -/

/-- The tuples are as many as the product of the sizes. -/
theorem tupleCount_eq_prod (domains : List (List String)) :
    tupleCount domains = (domains.map List.length).prod := by
  rw [tupleCount, List.prod_eq_foldr]

/-- The tuples over the last listings divide those over all of them. -/
theorem tupleCount_drop_dvd (domains : List (List String)) (i : Nat) :
    tupleCount (domains.drop i) ∣ tupleCount domains := by
  induction domains generalizing i with
  | nil => simp
  | cons d ds ih =>
    cases i with
    | zero => exact Nat.dvd_refl _
    | succ i => exact (ih i).mul_left d.length

/-- The position of a place is the digit of the numeral there: the quotient by the weight of the
place, modulo the size of its listing. -/
theorem getElem?_of_numeral (h : Within domains positions) {i : Nat} {d : List String}
    (hd : domains[i]? = some d) :
    positions[i]? =
      some (numeral domains positions / tupleCount (domains.drop (i + 1)) % d.length) := by
  induction h generalizing i with
  | nil => simp at hd
  | @cons d' p ds ps hp hps ih =>
    have hlt := numeral_lt hps
    cases i with
    | zero =>
      obtain rfl : d' = d := by simpa using hd
      rw [List.getElem?_cons_zero, numeral, List.drop_succ_cons, List.drop_zero, Nat.mul_comm,
        Nat.mul_add_div (by omega), Nat.div_eq_of_lt hlt, Nat.add_zero, Nat.mod_eq_of_lt hp]
    | succ i =>
      rw [List.getElem?_cons_succ] at hd ⊢
      rw [ih hd, numeral, List.drop_succ_cons]
      -- The weight of the first place is a multiple of what the digit is a remainder of.
      have hdrop : ds.drop i = d :: ds.drop (i + 1) := by
        obtain ⟨hi, rfl⟩ := List.getElem?_eq_some_iff.1 hd
        exact List.drop_eq_getElem_cons hi
      have hdvd : tupleCount (ds.drop (i + 1)) * d.length ∣ p * tupleCount ds := by
        have hdrop_dvd := tupleCount_drop_dvd ds i
        rw [hdrop, tupleCount_cons, Nat.mul_comm] at hdrop_dvd
        exact hdrop_dvd.mul_left p
      rw [← Nat.mod_mul_right_div_self, ← Nat.mod_mul_right_div_self, Nat.add_mod,
        Nat.mod_eq_zero_of_dvd hdvd, Nat.zero_add, Nat.mod_mod]

/-- The object at a place is the one at the position of the place. -/
theorem getElem?_of_tuple? {tuple : List String} (h : tuple? domains positions = some tuple)
    {i p : Nat} {d : List String} (hd : domains[i]? = some d) (hp : positions[i]? = some p) :
    tuple[i]? = d[p]? := by
  induction domains generalizing positions tuple i with
  | nil => simp at hd
  | cons d' ds ih =>
    obtain ⟨q, ps, object, rest, rfl, rfl, hobject, hrest⟩ := tuple?_cons_eq_some.1 h
    cases i with
    | zero =>
      obtain rfl : d' = d := by simpa using hd
      obtain rfl : q = p := by simpa using hp
      rw [hobject, List.getElem?_cons_zero]
    | succ i =>
      rw [List.getElem?_cons_succ] at hd hp ⊢
      exact ih hrest hd hp

/-- A tuple has one object for each listing. -/
theorem length_of_tuple? {tuple : List String} (h : tuple? domains positions = some tuple) :
    tuple.length = domains.length :=
  ((exists_tuple? domains tuple).1 ⟨positions, h⟩).length_eq.symm

/-- The tuple with the number `n`: each place shows the object at the digit of `n` there, and the
last place weighs least. -/
structure IsTupleAt (domains : List (List String)) (n : Nat) (tuple : List String) : Prop where
  /-- There is one object for each listing. -/
  length_eq : tuple.length = domains.length
  /-- The object of a listing is the one at the digit of its place. -/
  object : ∀ i d, domains[i]? = some d →
    tuple[i]? = d[n / ((domains.drop (i + 1)).map List.length).prod % d.length]?

/-- Positions show the tuple with their numeral. -/
theorem isTupleAt_numeral {tuple : List String} (h : tuple? domains positions = some tuple) :
    IsTupleAt domains (numeral domains positions) tuple where
  length_eq := length_of_tuple? h
  object i d hd := by
    rw [← tupleCount_eq_prod]
    exact getElem?_of_tuple? h hd (getElem?_of_numeral (within_of_tuple? h) hd)

/-! ### All calls -/

/-- An odometer over some listings after `n` calls. -/
structure IsAfter (domains : List (List String)) (n : Nat) (o : Odometer) : Prop where
  /-- The listings stay the same. -/
  domains_eq : o.domains = domains
  /-- There are as many positions as listings. -/
  length_positions : o.positions.length = domains.length
  /-- The odometer is finished when every tuple has been shown. -/
  finished_iff : o.finished = true ↔ tupleCount domains ≤ n
  /-- Until then, the positions are the digits of the number of calls. -/
  numeral_eq : n < tupleCount domains →
    Within domains o.positions ∧ numeral domains o.positions = n

/-- The first tuple is shown after no calls. -/
theorem isAfter_start (domains : List (List String)) : IsAfter domains 0 (start domains) := by
  by_cases hempty : [] ∈ domains
  · have hcount := tupleCount_eq_zero hempty
    refine ⟨rfl, List.length_map _, ?_, fun hlt => by omega⟩
    have hfinished : domains.any List.isEmpty = true :=
      List.any_eq_true.2 ⟨[], hempty, rfl⟩
    exact iff_of_true hfinished (Nat.le_of_eq hcount)
  · obtain ⟨hwithin, hzero⟩ := within_start hempty
    have hpos := numeral_lt hwithin
    rw [start_eq hempty]
    exact ⟨rfl, List.length_map _, iff_of_false Bool.false_ne_true (by omega),
      fun _ => ⟨hwithin, hzero⟩⟩

/-- Turning the places once counts one call further. -/
theorem isAfter_advance (h : Within domains positions) :
    IsAfter domains (numeral domains positions + 1)
      ⟨domains, (advance domains positions).1, (advance domains positions).2⟩ := by
  obtain ⟨hwithin, hcount⟩ := numeral_advance h
  have hlength := (List.Forall₂.length_eq hwithin).symm
  cases hwrapped : (advance domains positions).2 with
  | true =>
    -- The places have begun again, so the tuple was the last one.
    rw [hwrapped, if_pos rfl] at hcount
    exact ⟨rfl, hlength, iff_of_true rfl (by omega), fun hlt => by omega⟩
  | false =>
    rw [hwrapped, if_neg Bool.false_ne_true] at hcount
    have hbelow := numeral_lt hwithin
    exact ⟨rfl, hlength, iff_of_false Bool.false_ne_true (by omega), fun _ => ⟨hwithin, hcount⟩⟩

/-- Until every tuple has been shown, a call answers the tuple with the number of calls before
it. -/
theorem IsAfter.call (h : IsAfter domains n o) (hlt : n < tupleCount domains) :
    ∃ tuple o', o.next? = some (tuple, o') ∧ o.call? = some (some tuple, o') ∧
      (tuples domains)[n]? = some tuple ∧ IsTupleAt domains n tuple ∧
      IsAfter domains (n + 1) o' := by
  obtain ⟨domains, positions, finished⟩ := o
  obtain ⟨rfl, hlength, hfinished, hnumeral⟩ := h
  obtain ⟨hwithin, rfl⟩ := hnumeral hlt
  obtain rfl : finished = false := by simpa using mt hfinished.1 (Nat.not_le_of_lt hlt)
  obtain ⟨tuple, htuple⟩ := Option.isSome_iff_exists.1 ((tuple?_isSome domains positions).2 hwithin)
  have hnext : next? ⟨domains, positions, false⟩ = some (tuple,
      ⟨domains, (advance domains positions).1, (advance domains positions).2⟩) := by
    rw [next?, if_neg Bool.false_ne_true, htuple]
    rfl
  refine ⟨tuple, _, hnext, ?_, (getElem?_tuples hwithin).trans htuple, isTupleAt_numeral htuple,
    isAfter_advance hwithin⟩
  rw [call?_eq hlength, if_neg Bool.false_ne_true, hnext]
  rfl

/-- When every tuple has been shown, a call answers nothing and leaves the odometer as it is. -/
theorem IsAfter.call_finished (h : IsAfter domains n o) (hle : tupleCount domains ≤ n) :
    o.next? = none ∧ o.call? = some (none, o) ∧ IsAfter domains (n + 1) o := by
  have hfinished := h.finished_iff.2 hle
  refine ⟨?_, ?_, h.domains_eq, h.length_positions, ?_, fun hlt => by omega⟩
  · rw [next?, if_pos hfinished]
  · rw [call?, if_pos hfinished]
  · exact iff_of_true hfinished (by omega)

/-- No access is out of range, however often the odometer is called. -/
theorem isAfter_after? (domains : List (List String)) (n : Nat) :
    ∃ o, after? domains n = some o ∧ IsAfter domains n o := by
  induction n with
  | zero => exact ⟨_, rfl, isAfter_start domains⟩
  | succ n ih =>
    obtain ⟨o, ho, h⟩ := ih
    rcases Nat.lt_or_ge n (tupleCount domains) with hlt | hle
    · obtain ⟨tuple, o', -, hcall, -, -, h'⟩ := h.call hlt
      exact ⟨o', by simp [after?, ho, hcall], h'⟩
    · obtain ⟨-, hcall, h'⟩ := h.call_finished hle
      exact ⟨o, by simp [after?, ho, hcall], h'⟩

/-- The tuples that a run shows are those that have not been shown yet, as many as it may. -/
theorem IsAfter.run_eq (h : IsAfter domains n o) (limit : Nat) :
    run limit o = ((tuples domains).drop n).take limit := by
  induction limit generalizing n o with
  | zero => rfl
  | succ limit ih =>
    rcases Nat.lt_or_ge n (tupleCount domains) with hlt | hle
    · obtain ⟨tuple, o', hnext, -, htuple, -, h'⟩ := h.call hlt
      obtain ⟨hn, rfl⟩ := List.getElem?_eq_some_iff.1 htuple
      rw [run, hnext, List.drop_eq_getElem_cons hn, List.take_succ_cons]
      exact congrArg _ (ih h')
    · rw [run, (h.call_finished hle).1, List.drop_eq_nil_of_le (by rwa [length_tuples]),
        List.take_nil]

/-- Calling an odometer until it answers nothing shows as many tuples as the product of the sizes of
its listings: the empty tuple alone without listings, and none beside an empty listing. A run that
may show more shows no more. No access is ever out of range. The call after `n` others answers the
tuple with the number `n`, or nothing if there are not so many, and then for good. -/
theorem calls_enumerate_product (domains : List (List String)) :
    (tuples domains).length = (domains.map List.length).prod ∧
    tuples [] = [[]] ∧
    ([] ∈ domains → tuples domains = []) ∧
    (∀ limit, (domains.map List.length).prod ≤ limit →
      run limit (start domains) = tuples domains) ∧
    ∀ n, ∃ o, after? domains n = some o ∧
      (n < (domains.map List.length).prod → ∃ tuple o', o.call? = some (some tuple, o') ∧
        o.next? = some (tuple, o') ∧ (tuples domains)[n]? = some tuple ∧
        IsTupleAt domains n tuple) ∧
      ((domains.map List.length).prod ≤ n → o.call? = some (none, o) ∧ o.next? = none) := by
  rw [← tupleCount_eq_prod]
  refine ⟨length_tuples domains, rfl, tuples_eq_nil, fun limit hlimit => ?_, fun n => ?_⟩
  · rw [(isAfter_start domains).run_eq, List.drop_zero, List.take_of_length_le]
    rwa [length_tuples]
  · obtain ⟨o, ho, h⟩ := isAfter_after? domains n
    refine ⟨o, ho, fun hlt => ?_, fun hle => ?_⟩
    · obtain ⟨tuple, o', hnext, hcall, htuple, hat, -⟩ := h.call hlt
      exact ⟨tuple, o', hcall, hnext, htuple, hat⟩
    · obtain ⟨hnext, hcall, -⟩ := h.call_finished hle
      exact ⟨hcall, hnext⟩

/-- The last listing turns fastest. -/
example : tuples [["a", "b"], ["x", "y"]] = [["a", "x"], ["a", "y"], ["b", "x"], ["b", "y"]] := by
  decide

end Odometer

end Grounder
