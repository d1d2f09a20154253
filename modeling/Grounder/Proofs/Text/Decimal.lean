import Grounder.Proofs.Support.Decimal
import Grounder.Text.Decimal

/-!
# `Grounder.Proofs.Text.Decimal`: integers that are read back

The text of a number is read as that number (`natural?_toString`), and the text of a 64-bit integer
as that integer (`integer?_toString`). A text that is read as an integer consists of signs and
digits (`isNumeral_of_integer?`), so it can stand between punctuation of other kinds.
-/

set_option autoImplicit false

namespace Grounder.Text

open Proofs.Support

/-! ### Digits -/

/-- The digits are the characters from zero to nine. -/
theorem isDigit_iff {c : Char} : c.isDigit = true ↔ '0' ≤ c ∧ c ≤ '9' := by
  simp only [Char.isDigit, Bool.and_eq_true, decide_eq_true_eq]
  exact Iff.rfl

/-- A digit is read as its value. -/
theorem digit?_of_isDigit {c : Char} (h : c.isDigit = true) :
    digit? c = some (c.toNat - '0'.toNat) := by
  rw [digit?, if_pos (isDigit_iff.1 h)]

/-- What is read as a digit is one. -/
theorem isDigit_of_digit? {c : Char} (h : (digit? c).isSome = true) : c.isDigit = true := by
  unfold digit? at h
  split at h
  · rename_i hbounds
    exact isDigit_iff.2 hbounds
  · cases h

/-- Digits are read as the number that they write. -/
theorem appendDigits?_digits {digits : List Char} (h : ∀ c ∈ digits, c.isDigit = true)
    (value : Nat) : appendDigits? value digits = some (Nat.ofDigitChars 10 digits value) := by
  induction digits generalizing value with
  | nil => rfl
  | cons c digits ih =>
    rw [List.forall_mem_cons] at h
    rw [appendDigits?, digit?_of_isDigit h.1, Option.bind_some, ih h.2, Nat.mul_comm value 10]
    rfl

/-- What is read as a number consists of digits. -/
theorem isDigit_of_appendDigits? {digits : List Char} {value : Nat}
    (h : (appendDigits? value digits).isSome = true) : ∀ c ∈ digits, c.isDigit = true := by
  induction digits generalizing value with
  | nil =>
    intro c hc
    cases hc
  | cons c digits ih =>
    rw [appendDigits?] at h
    cases hdigit : digit? c with
    | none =>
      rw [hdigit] at h
      cases h
    | some d =>
      rw [hdigit] at h
      exact List.forall_mem_cons.2 ⟨isDigit_of_digit? (by rw [hdigit]; rfl), ih h⟩

/-- The text of a number is read as that number. -/
theorem natural?_toString (n : Nat) : natural? (toString n).toList = some n := by
  have hdigits : ∀ c ∈ (toString n).toList, c.isDigit = true := by
    intro c hc
    rw [toList_toString] at hc
    exact Nat.isDigit_of_mem_toDigits (by decide) (by decide) hc
  obtain ⟨d, digits, htext, -⟩ := head_toString n
  rw [htext, natural?, ← htext, appendDigits?_digits hdigits, toList_toString,
    Nat.ofDigitChars_ten_toDigits]

/-! ### Integers -/

/-- An integer of 64 bits fits 64 bits. -/
theorem word?_toInt (n : Int64) : word? n.toInt = some n := by
  rw [word?, if_pos ⟨n.minValue_le_toInt, n.toInt_le⟩, Int64.ofInt_toInt]

/-- The text of an integer is read as that integer, whatever its size. -/
theorem signed?_toString (n : Int) : signed? (toString n).toList = some n := by
  cases n with
  | ofNat n =>
    show signed? (toString n).toList = _
    have hread := natural?_toString n
    obtain ⟨d, digits, htext, hd⟩ := head_toString n
    rw [htext] at hread ⊢
    -- A digit is not one of the signs.
    rw [signed?, hread]
    · rfl
    · rintro cs heq
      rw [(List.cons.inj heq).1] at hd
      exact absurd hd (by decide)
    · rintro cs heq
      rw [(List.cons.inj heq).1] at hd
      exact absurd hd (by decide)
  | negSucc n =>
    rw [toList_toString_negSucc, signed?, natural?_toString]
    rfl

/-- The text of a number is read as an integer if it fits 64 bits. -/
theorem integer?_toString_nat (n : Nat) : integer? (toString n) = word? n := by
  have hread := signed?_toString n
  rw [show toString (n : Int) = toString n from rfl] at hread
  rw [integer?, hread, Option.bind_some]

/-- The text of a 64-bit integer is read as that integer. -/
theorem integer?_toString (n : Int64) : integer? (toString n.toInt) = some n := by
  rw [integer?, signed?_toString, Option.bind_some, word?_toInt]

/-! ### The characters of integers -/

/-- A digit or a sign. -/
def IsNumeral (c : Char) : Prop := c.isDigit = true ∨ c = '-' ∨ c = '+'

/-- The digits of a number are numerals. -/
theorem isNumeral_toString (n : Nat) : ∀ c ∈ (toString n).toList, IsNumeral c := by
  intro c hc
  rw [toList_toString] at hc
  exact Or.inl (Nat.isDigit_of_mem_toDigits (by decide) (by decide) hc)

/-- A text that is read as a number is not empty and consists of digits. -/
theorem isDigit_of_natural? {digits : List Char} (h : (natural? digits).isSome = true) :
    digits ≠ [] ∧ ∀ c ∈ digits, c.isDigit = true := by
  cases digits with
  | nil => cases h
  | cons c digits => exact ⟨List.cons_ne_nil _ _, isDigit_of_appendDigits? h⟩

/-- A text that is read as an integer is a number behind at most one sign. -/
theorem exists_sign_of_signed? {cs : List Char} (h : (signed? cs).isSome = true) :
    ∃ sign digits, cs = sign ++ digits ∧ (sign = [] ∨ sign = ['-'] ∨ sign = ['+']) ∧
      (natural? digits).isSome = true := by
  -- Whatever is made of a number is there only if the number is.
  have hsome : ∀ digits, ∀ f : Int → Int,
      ((natural? digits >>= fun n => pure (n : Int)).map f).isSome = true →
        (natural? digits).isSome = true := by
    intro digits f hf
    cases hread : natural? digits with
    | none =>
      rw [hread] at hf
      cases hf
    | some n => rfl
  unfold signed? at h
  split at h
  · rename_i digits
    exact ⟨['-'], digits, rfl, Or.inr (Or.inl rfl), hsome digits _ h⟩
  · rename_i digits
    exact ⟨['+'], digits, rfl, Or.inr (Or.inr rfl), hsome digits _ h⟩
  · exact ⟨[], cs, rfl, Or.inl rfl, hsome cs _ h⟩

/-- A text that is read as an integer is not empty and consists of numerals. -/
theorem isNumeral_of_integer? {s : String} (h : (integer? s).isSome = true) :
    s ≠ "" ∧ ∀ c ∈ s.toList, IsNumeral c := by
  have hsigned : (signed? s.toList).isSome = true := by
    unfold integer? at h
    cases hread : signed? s.toList with
    | none =>
      rw [hread] at h
      cases h
    | some n => rfl
  obtain ⟨sign, digits, htext, hsign, hnatural⟩ := exists_sign_of_signed? hsigned
  obtain ⟨hne, hdigits⟩ := isDigit_of_natural? hnatural
  constructor
  · rintro rfl
    exact hne (List.append_eq_nil_iff.1 htext.symm).2
  · intro c hc
    rw [htext, List.mem_append] at hc
    rcases hc with hc | hc
    · rcases hsign with rfl | rfl | rfl
      · cases hc
      · exact Or.inr (Or.inl (List.mem_singleton.1 hc))
      · exact Or.inr (Or.inr (List.mem_singleton.1 hc))
    · exact Or.inl (hdigits c hc)

end Grounder.Text
