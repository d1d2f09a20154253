import Grounder.Proofs.Json.Scalar

/-!
# `Grounder.Proofs.Json.RoundTrip`: printed values are read back

Whatever white space a layout puts around the parts of a value, the reader skips it. So a printed
value is read as that value (`read_print`), unless it holds a number that is no integer of 64 bits
or something unreadable.

The induction is on values, along with the lists of their parts. A reader in the middle of an array
or an object has seen some parts and goes on behind them, so the companions of the induction speak
of what it does there (`afterItem`, `afterMember`). The fuel that is left is at least as much as the
text that is left.
-/

set_option autoImplicit false

namespace Grounder.Json

mutual

/-- A value that the printer writes without a loss. -/
def Value.IsPlain : Value → Prop
  | .null | .bool _ | .string _ => True
  | .number (.integer n) => Int64.minValue.toInt ≤ n ∧ n < UInt64.size
  | .number (.double ..) | .unreadable => False
  | .array items => ArePlain items
  | .object members => MembersArePlain members

/-- `Value.IsPlain` for every item. -/
def ArePlain : List Value → Prop
  | [] => True
  | v :: rest => v.IsPlain ∧ ArePlain rest

/-- `Value.IsPlain` for every member. -/
def MembersArePlain : List (String × Value) → Prop
  | [] => True
  | (_, v) :: rest => v.IsPlain ∧ MembersArePlain rest

end

/-- A layout of nothing but white space. -/
structure Layout.IsBlank (l : Layout) : Prop where
  beforeItem : ∀ depth, ∀ c ∈ l.beforeItem depth, Reader.isSpace c = true
  afterColon : ∀ c ∈ l.afterColon, Reader.isSpace c = true

/-- Everything on one line is a layout of white space. -/
theorem Layout.isBlank_compact : Layout.compact.IsBlank :=
  ⟨fun _ _ h => absurd h List.not_mem_nil, fun _ h => absurd h List.not_mem_nil⟩

/-- Indented lines are a layout of white space. -/
theorem Layout.isBlank_spread : Layout.spread.IsBlank := by
  refine ⟨fun depth c hc => ?_, fun c hc => ?_⟩
  · obtain rfl | hc := List.mem_cons.1 hc
    · decide
    · rw [List.eq_of_mem_replicate hc]
      decide
  · rw [List.mem_singleton.1 hc]
    decide

namespace Reader

open Proofs.Support

variable {l : Layout}

/-! ### White space -/

/-- White space in front is skipped. -/
theorem skip_append {blank : List Char} (h : ∀ c ∈ blank, isSpace c = true) (rest : List Char) :
    skip (blank ++ rest) = skip rest :=
  List.dropWhile_append_of_pos h

/-- Nothing is skipped in front of a character. -/
theorem skip_cons {c : Char} (h : isSpace c = false) (rest : List Char) :
    skip (c :: rest) = c :: rest := by
  rw [skip, List.dropWhile_cons_of_neg (by rw [h]; decide)]

/-- What begins a number is no other character. -/
theorem ne_of_numeral {c d : Char} (hd : d.isDigit = true ∨ d = '-')
    (hc : c.isDigit = false ∧ c ≠ '-') : d ≠ c := by
  rintro rfl
  rcases hd with hd | hd
  · rw [hc.1] at hd
    cases hd
  · exact hc.2 hd

/-- A printed value begins with a character that is neither white space nor the end of an array. -/
theorem head_value (l : Layout) (depth : Nat) (v : Value) (h : v.IsPlain) :
    ∃ c cs, Printer.value l depth v = c :: cs ∧ isSpace c = false ∧ c ≠ ']' := by
  cases v with
  | null => exact ⟨'n', _, rfl, by decide, by decide⟩
  | bool b => cases b <;> exact ⟨_, _, rfl, by decide, by decide⟩
  | string s => exact ⟨'"', _, rfl, by decide, by decide⟩
  | unreadable => exact h.elim
  | array vs => cases vs <;> exact ⟨'[', _, rfl, by decide, by decide⟩
  | object ms => cases ms <;> exact ⟨'\x7b', _, rfl, by decide, by decide⟩
  | number n =>
    cases n with
    | double negative magnitude => exact h.elim
    | integer n =>
      obtain ⟨d, digits, htext, hd⟩ := head_toString_int n
      refine ⟨d, digits, htext, ?_, ne_of_numeral hd (by decide)⟩
      simp only [isSpace, Bool.or_eq_false_iff, beq_eq_false_iff_ne]
      exact ⟨⟨⟨ne_of_numeral hd (by decide), ne_of_numeral hd (by decide)⟩,
        ne_of_numeral hd (by decide)⟩, ne_of_numeral hd (by decide)⟩

/-- Nothing is skipped in front of a printed value. -/
theorem skip_value (l : Layout) (depth : Nat) {v : Value} (h : v.IsPlain) (rest : List Char) :
    skip (Printer.value l depth v ++ rest) = Printer.value l depth v ++ rest := by
  obtain ⟨c, cs, htext, hc, -⟩ := head_value l depth v h
  rw [htext, List.cons_append, skip_cons hc]

/-- Nothing is skipped in front of a printed string. -/
theorem skip_text (s : String) (rest : List Char) :
    skip (Printer.text s ++ rest) = Printer.text s ++ rest := by
  rw [Printer.text, List.cons_append, List.cons_append, skip_cons (by decide)]

/-- A printed value is not empty. -/
theorem length_value_pos (l : Layout) (depth : Nat) {v : Value} (h : v.IsPlain) :
    0 < (Printer.value l depth v).length := by
  obtain ⟨c, cs, htext, -, -⟩ := head_value l depth v h
  rw [htext]
  exact Nat.succ_pos _

/-- What is printed behind an item is not empty. -/
theorem length_items_pos (l : Layout) (depth : Nat) (vs : List Value) :
    0 < (Printer.items l depth vs).length := by
  cases vs <;> simp [Printer.items]

/-! ### Between the parts -/

/-- What the reader does behind an item. -/
def afterItem (fuel : Nat) (seen : List Value) (rest : List Char) : Option (Value × List Char) :=
  match skip rest with
  | ',' :: rest' => items fuel seen (skip rest')
  | ']' :: rest' => some (.array seen.reverse, rest')
  | _ => none

/-- What the reader does behind a member. -/
def afterMember (fuel : Nat) (seen : List (String × Value)) (rest : List Char) :
    Option (Value × List Char) :=
  match skip rest with
  | ',' :: rest' => members fuel true seen (skip rest')
  | '}' :: rest' => some (.object seen.reverse, rest')
  | _ => none

/-- Behind a bracket that is not closed at once, the reader goes on with an item. -/
theorem value_bracket (fuel : Nat) {cs : List Char} (h : ∀ rest, skip cs ≠ ']' :: rest) :
    value (fuel + 1) ('[' :: cs) = items fuel [] (skip cs) := by
  rw [value]
  split
  · rename_i rest heq
    exact absurd heq (h rest)
  · rfl

/-- Behind a brace that is not closed at once, the reader goes on with a member. -/
theorem value_brace (fuel : Nat) {cs : List Char} (h : ∀ rest, skip cs ≠ '\x7d' :: rest) :
    value (fuel + 1) ('\x7b' :: cs) = members fuel true [] (skip cs) := by
  rw [value]
  split
  · rename_i rest heq
    exact absurd heq (h rest)
  · rfl

/-- An item is read, and the reader goes on behind it. -/
theorem items_of_value {fuel : Nat} {cs rest : List Char} {v : Value} (seen : List Value)
    (h : value fuel cs = some (v, rest)) :
    items (fuel + 1) seen cs = afterItem fuel (v :: seen) rest := by
  rw [items, h]
  rfl

/-- A member is read, and the reader goes on behind it. -/
theorem members_of_value {fuel : Nat} {name : String} {cs rest : List Char} {v : Value}
    (seen : List (String × Value)) (hl : l.IsBlank) (hvalue : value fuel cs = some (v, rest))
    (hskip : skip cs = cs) :
    members (fuel + 1) true seen (Printer.text name ++ ':' :: (l.afterColon ++ cs))
      = afterMember fuel ((name, v) :: seen) rest := by
  obtain ⟨printed, hprinted, htext⟩ := text_text name (':' :: (l.afterColon ++ cs))
  rw [hprinted, members, htext]
  simp only [skip_cons (show isSpace ':' = false by decide), skip_append hl.afterColon, hskip,
    hvalue]
  rfl

/-- With a character that ends a number no number goes on. -/
theorem ends_cons {c : Char} (hc : c = ',' ∨ c = ']' ∨ c = '\x7d') (rest : List Char) :
    Ends (c :: rest) := by
  intro d hd
  cases hd
  exact Or.inr hc

/-- With white space and a character that ends a number no number goes on. -/
theorem ends_append {blank : List Char} (h : ∀ c ∈ blank, isSpace c = true) {c : Char}
    (hc : c = ',' ∨ c = ']' ∨ c = '\x7d') (rest : List Char) : Ends (blank ++ c :: rest) := by
  cases blank with
  | nil => exact ends_cons hc rest
  | cons d blank =>
    intro d' hd'
    cases hd'
    exact Or.inl (h d List.mem_cons_self)

/-- With the items behind an item no number goes on. -/
theorem ends_items (hl : l.IsBlank) (depth : Nat) (vs : List Value) (rest : List Char) :
    Ends (Printer.items l depth vs ++ rest) := by
  cases vs with
  | nil =>
    rw [Printer.items, List.append_assoc]
    exact ends_append (hl.beforeItem depth) (Or.inr (Or.inl rfl)) rest
  | cons v vs =>
    rw [Printer.items]
    exact ends_cons (Or.inl rfl) _

/-- With the members behind a member no number goes on. -/
theorem ends_members (hl : l.IsBlank) (depth : Nat) (ms : List (String × Value))
    (rest : List Char) : Ends (Printer.members l depth ms ++ rest) := by
  cases ms with
  | nil =>
    rw [Printer.members, List.append_assoc]
    exact ends_append (hl.beforeItem depth) (Or.inr (Or.inr rfl)) rest
  | cons m ms =>
    rw [Printer.members]
    exact ends_cons (Or.inl rfl) _

/-! ### Values -/

/-- A printed integer is read as that integer. -/
theorem value_integer {n : Int} (hn : (Value.number (.integer n)).IsPlain) (fuel : Nat)
    {rest : List Char} (hrest : Ends rest) :
    value (fuel + 1) ((toString n).toList ++ rest) = some (.number (.integer n), rest) := by
  have hread := number_integer hn.1 hn.2 hrest
  obtain ⟨d, digits, htext, hd⟩ := head_toString_int n
  rw [htext, List.cons_append] at hread ⊢
  -- What begins a number begins nothing else.
  rw [value, hread] <;> intro _ h <;> exact ne_of_numeral hd (by decide) (List.cons.inj h).1

mutual

/-- A printed value is read as that value. -/
theorem value_value (hl : l.IsBlank) (v : Value) (hv : v.IsPlain) (depth fuel : Nat)
    (rest : List Char) (hfuel : (Printer.value l depth v).length ≤ fuel) (hrest : Ends rest) :
    value fuel (Printer.value l depth v ++ rest) = some (v, rest) := by
  have hpos := length_value_pos l depth hv
  obtain ⟨fuel, rfl⟩ : ∃ n, fuel = n + 1 := ⟨fuel - 1, by omega⟩
  cases v with
  | null => rfl
  | bool b => cases b <;> rfl
  | unreadable => exact hv.elim
  | number n =>
    cases n with
    | double negative magnitude => exact hv.elim
    | integer n => exact value_integer hv fuel hrest
  | string s =>
    obtain ⟨printed, hprinted, htext⟩ := text_text s rest
    rw [Printer.value, hprinted, value, htext]
  | array vs =>
    cases vs with
    | nil => rfl
    | cons v vs =>
      -- One step of fuel goes to the bracket and one to the item.
      have htext : Printer.value l depth (.array (v :: vs)) ++ rest
          = '[' :: (l.beforeItem (depth + 1)
            ++ (Printer.value l (depth + 1) v ++ (Printer.items l depth vs ++ rest))) := by
        simp [Printer.value]
      simp only [Printer.value, List.length_append, List.length_cons] at hfuel
      have hpos := length_value_pos l (depth + 1) hv.1
      have hpos' := length_items_pos l depth vs
      have hskip := skip_value l (depth + 1) hv.1 (Printer.items l depth vs ++ rest)
      obtain ⟨fuel, rfl⟩ : ∃ n, fuel = n + 1 := ⟨fuel - 1, by omega⟩
      rw [htext, value_bracket, skip_append (hl.beforeItem _), hskip,
        items_of_value [] (value_value hl v hv.1 (depth + 1) fuel _ (by omega)
          (ends_items hl depth vs rest)),
        afterItem_items hl vs hv.2 depth fuel [v] rest (by omega)]
      · rfl
      · -- The first item does not begin with the closing bracket.
        intro rest' heq
        obtain ⟨c, cs, hhead, -, hc⟩ := head_value l (depth + 1) v hv.1
        rw [skip_append (hl.beforeItem _), hskip, hhead, List.cons_append] at heq
        exact hc (List.cons.inj heq).1
  | object ms =>
    cases ms with
    | nil => rfl
    | cons m ms =>
      obtain ⟨name, v⟩ := m
      have htext : Printer.value l depth (.object ((name, v) :: ms)) ++ rest
          = '\x7b' :: (l.beforeItem (depth + 1) ++ (Printer.text name ++ ':' :: (l.afterColon
            ++ (Printer.value l (depth + 1) v ++ (Printer.members l depth ms ++ rest))))) := by
        simp [Printer.value]
      simp only [Printer.value, List.length_append, List.length_cons] at hfuel
      obtain ⟨fuel, rfl⟩ : ∃ n, fuel = n + 1 := ⟨fuel - 1, by omega⟩
      have hskip := skip_text name (':' :: (l.afterColon
        ++ (Printer.value l (depth + 1) v ++ (Printer.members l depth ms ++ rest))))
      rw [htext, value_brace, skip_append (hl.beforeItem _), hskip,
        members_of_value [] hl (value_value hl v hv.1 (depth + 1) fuel _ (by omega)
          (ends_members hl depth ms rest)) (skip_value l (depth + 1) hv.1 _),
        afterMember_members hl ms hv.2 depth fuel [(name, v)] rest (by omega)]
      · rfl
      · -- The first name does not begin with the closing brace.
        intro rest' heq
        rw [skip_append (hl.beforeItem _), hskip, Printer.text] at heq
        exact absurd (List.cons.inj heq).1 (by decide)

/-- The printed items behind an item are read as these items. -/
theorem afterItem_items (hl : l.IsBlank) (vs : List Value) (hvs : ArePlain vs) (depth fuel : Nat)
    (seen : List Value) (rest : List Char) (hfuel : (Printer.items l depth vs).length ≤ fuel) :
    afterItem fuel seen (Printer.items l depth vs ++ rest)
      = some (.array (seen.reverse ++ vs), rest) := by
  cases vs with
  | nil =>
    rw [Printer.items, List.append_assoc, afterItem, skip_append (hl.beforeItem _),
      List.append_nil]
    rfl
  | cons v vs =>
    have htext : Printer.items l depth (v :: vs) ++ rest
        = ',' :: (l.beforeItem (depth + 1)
          ++ (Printer.value l (depth + 1) v ++ (Printer.items l depth vs ++ rest))) := by
      simp [Printer.items]
    simp only [Printer.items, List.length_append, List.length_cons] at hfuel
    obtain ⟨fuel, rfl⟩ : ∃ n, fuel = n + 1 := ⟨fuel - 1, by omega⟩
    rw [htext, afterItem, skip_cons (by decide)]
    show items (fuel + 1) seen (skip _) = _
    rw [skip_append (hl.beforeItem _), skip_value l (depth + 1) hvs.1,
      items_of_value seen (value_value hl v hvs.1 (depth + 1) fuel _ (by omega)
        (ends_items hl depth vs rest)),
      afterItem_items hl vs hvs.2 depth fuel (v :: seen) rest (by omega), List.reverse_cons,
      List.append_assoc]
    rfl

/-- The printed members behind a member are read as these members. -/
theorem afterMember_members (hl : l.IsBlank) (ms : List (String × Value))
    (hms : MembersArePlain ms) (depth fuel : Nat) (seen : List (String × Value))
    (rest : List Char) (hfuel : (Printer.members l depth ms).length ≤ fuel) :
    afterMember fuel seen (Printer.members l depth ms ++ rest)
      = some (.object (seen.reverse ++ ms), rest) := by
  cases ms with
  | nil =>
    rw [Printer.members, List.append_assoc, afterMember, skip_append (hl.beforeItem _),
      List.append_nil]
    rfl
  | cons m ms =>
    obtain ⟨name, v⟩ := m
    have htext : Printer.members l depth ((name, v) :: ms) ++ rest
        = ',' :: (l.beforeItem (depth + 1) ++ (Printer.text name ++ ':' :: (l.afterColon
          ++ (Printer.value l (depth + 1) v ++ (Printer.members l depth ms ++ rest))))) := by
      simp [Printer.members]
    simp only [Printer.members, List.length_append, List.length_cons] at hfuel
    obtain ⟨fuel, rfl⟩ : ∃ n, fuel = n + 1 := ⟨fuel - 1, by omega⟩
    rw [htext, afterMember, skip_cons (by decide)]
    show members (fuel + 1) true seen (skip _) = _
    rw [skip_append (hl.beforeItem _), skip_text,
      members_of_value seen hl (value_value hl v hms.1 (depth + 1) fuel _ (by omega)
        (ends_members hl depth ms rest)) (skip_value l (depth + 1) hms.1 _),
      afterMember_members hl ms hms.2 depth fuel ((name, v) :: seen) rest (by omega),
      List.reverse_cons, List.append_assoc]
    rfl

end

/-- A printed value is read as that value, whatever white space is around its parts. -/
theorem read_print (hl : l.IsBlank) {v : Value} (hv : v.IsPlain) :
    read (String.ofList (Printer.value l 0 v)) = some v := by
  have hends : Ends [] := fun c hc => absurd hc (by simp)
  have hskip := skip_value l 0 hv []
  rw [List.append_nil] at hskip
  have hread := value_value hl v hv 0 ((Printer.value l 0 v).length + 1) [] (by omega) hends
  rw [List.append_nil] at hread
  rw [read, String.toList_ofList, hskip, hread]
  rfl

end Reader

end Grounder.Json
