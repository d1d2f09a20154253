import Grounder.Json.Printer
import Grounder.Json.Reader
import Grounder.Proofs.Support.Decimal

/-!
# `Grounder.Proofs.Json.Scalar`: strings and integers are read back

The printer escapes characters one by one, and the reader takes each escape for the character it
stands for, so a printed string is read as that string (`text_text`). An integer is printed as its
digits. It is read back in front of any text that does not go on with the number
(`number_integer`), as long as it fits 64 bits, with or without a sign.
-/

set_option autoImplicit false

namespace Grounder.Json.Reader

open Printer (escape hexDigit)
open Proofs.Support

/-! ### Strings -/

/-- A hexadecimal digit is read back. -/
theorem hexDigit?_hexDigit : ∀ n < 16, hexDigit? (hexDigit n) = some n := by decide

/-- The four digits of an escaped control are read back. -/
theorem unit?_control {n : Nat} (h : n < 0x20) :
    unit? '0' '0' (hexDigit (n / 16)) (hexDigit (n % 16)) = some n := by
  have hzero : hexDigit? '0' = some 0 := by decide
  rw [unit?, hzero, hexDigit?_hexDigit _ (by omega), hexDigit?_hexDigit _ (by omega)]
  simp only [Option.some.injEq]
  omega

/-- A control is no half of a surrogate pair. -/
theorem pushUnit_control (p : Partial) {n : Nat} (h : n < 0x20) :
    p.pushUnit n = p.push (Char.ofNat n) := by
  have hhigh : isHighHalf n = false := by
    rw [isHighHalf, Bool.and_eq_false_iff]
    left
    exact decide_eq_false (by omega)
  have hlow : isLowHalf n = false := by
    rw [isLowHalf, Bool.and_eq_false_iff]
    left
    exact decide_eq_false (by omega)
  simp [Partial.pushUnit, hhigh, hlow]

/-- How a character is printed: as a backslash and a letter that stands for it, as an escaped
control, or as it is. -/
theorem escape_cases (c : Char) :
    (∃ letter, escape c = ['\\', letter] ∧ letter ≠ 'u' ∧ escaped? letter = some c) ∨
    (escape c = ['\\', 'u', '0', '0', hexDigit (c.toNat / 16), hexDigit (c.toNat % 16)] ∧
      c.toNat < 0x20) ∨
    (escape c = [c] ∧ c ≠ '"' ∧ c ≠ '\\' ∧ ¬ c.toNat < 0x20) := by
  by_cases hletter : c ∈ ['"', '\\', '\n', '\r', '\t', '\x08', '\x0c']
  · left
    simp only [List.mem_cons, List.not_mem_nil, or_false] at hletter
    rcases hletter with rfl | rfl | rfl | rfl | rfl | rfl | rfl <;>
      exact ⟨_, rfl, by decide, by decide⟩
  · right
    simp only [List.mem_cons, List.not_mem_nil, or_false, not_or] at hletter
    obtain ⟨hquote, hbackslash, hn, hr, ht, hb, hf⟩ := hletter
    simp only [escape, if_neg hquote, if_neg hbackslash, if_neg hn, if_neg hr, if_neg ht,
      if_neg hb, if_neg hf]
    by_cases hcontrol : c.toNat < 0x20
    · exact Or.inl ⟨if_pos hcontrol, hcontrol⟩
    · exact Or.inr ⟨if_neg hcontrol, hquote, hbackslash, hcontrol⟩

/-- The reader takes what is printed for a character as that character. -/
theorem text_escape (p : Partial) (c : Char) (rest : List Char) :
    text p (escape c ++ rest) = text (p.push c) rest := by
  obtain ⟨letter, hescape, hu, hletter⟩ | ⟨hescape, hcontrol⟩ |
    ⟨hescape, hquote, hbackslash, hcontrol⟩ := escape_cases c
  · -- A letter stands for the character, and it is not the one in front of four digits.
    rw [hescape]
    show text p ('\\' :: letter :: rest) = _
    rw [text, hletter]
    intro _ _ _ _ _ h
    exact absurd h hu
  · rw [hescape]
    show text p ('\\' :: 'u' :: '0' :: '0' :: hexDigit (c.toNat / 16) :: hexDigit (c.toNat % 16)
      :: rest) = _
    rw [text, unit?_control hcontrol]
    simp only [pushUnit_control p hcontrol, Char.ofNat_toNat]
  · -- The character itself neither ends the string nor begins an escape.
    rw [hescape]
    show text p (c :: rest) = _
    rw [text, if_neg hcontrol]
    · exact fun h => hquote h
    · exact fun _ _ _ _ _ h => absurd h hbackslash
    · exact fun _ _ h => absurd h hbackslash

/-- The reader takes what is printed for characters as these characters, up to the closing quote. -/
theorem text_flatMap_escape (p : Partial) (cs rest : List Char) :
    text p (cs.flatMap escape ++ '"' :: rest) = some ((cs.foldl Partial.push p).text?, rest) := by
  induction cs generalizing p with
  | nil => rw [List.flatMap_nil, List.nil_append, text, List.foldl_nil]
  | cons c cs ih =>
    rw [List.flatMap_cons, List.append_assoc, text_escape, ih, List.foldl_cons]

/-- Characters that are pushed one after another are the text. -/
theorem text?_foldl_push (cs seen : List Char) :
    (cs.foldl Partial.push ⟨seen, none, true⟩).text?
      = some (String.ofList (seen.reverse ++ cs)) := by
  induction cs generalizing seen with
  | nil =>
    rw [List.foldl_nil, List.append_nil]
    rfl
  | cons c cs ih =>
    rw [List.foldl_cons]
    show (cs.foldl Partial.push ⟨c :: seen, none, true⟩).text? = _
    rw [ih, List.reverse_cons, List.append_assoc]
    rfl

/-- A printed string is read as that string. -/
theorem text_text (s : String) (rest : List Char) :
    ∃ printed, Printer.text s ++ rest = '"' :: printed ∧
      text .empty printed = some (some s, rest) := by
  refine ⟨s.toList.flatMap escape ++ '"' :: rest, ?_, ?_⟩
  · rw [Printer.text, List.cons_append, List.cons_append, List.append_assoc]
    rfl
  · rw [text_flatMap_escape, Partial.empty, text?_foldl_push, List.reverse_nil, List.nil_append,
      String.ofList_toList]

/-! ### Integers -/

/-- A text with which no number goes on: it ends, or the next character is white space, a comma, or
a closing bracket or brace. -/
def Ends (rest : List Char) : Prop :=
  ∀ c ∈ rest.head?, isSpace c = true ∨ c = ',' ∨ c = ']' ∨ c = '}'

/-- What stands after a number is no digit, no point and no exponent. -/
theorem Ends.head {c : Char} {rest : List Char} (h : Ends (c :: rest)) :
    c.isDigit = false ∧ c ≠ '.' ∧ c ≠ 'e' ∧ c ≠ 'E' := by
  have hc := h c rfl
  simp only [isSpace, Bool.or_eq_true, beq_iff_eq] at hc
  rcases hc with ((((rfl | rfl) | rfl) | rfl) | rfl | rfl | rfl) <;> decide

/-- Digits are the same to the reader of JSON and to the library. -/
theorem isDigit_eq : isDigit = Char.isDigit := by
  funext c
  rfl

/-- The digits of a number that is not zero begin with another digit than zero. -/
theorem head_toDigits_ne {n : Nat} (hn : 0 < n) : (Nat.toDigits 10 n).head? ≠ some '0' := by
  induction n using Nat.strongRecOn with
  | ind n ih =>
    by_cases hlt : n < 10
    · have hdigit : ∀ d < 10, 0 < d → [Nat.digitChar d].head? ≠ some '0' := by decide
      rw [Nat.toDigits_of_lt_base hlt]
      exact hdigit n hlt hn
    · -- The first digit is that of the number without its last digit.
      rw [Nat.toDigits_of_base_le (by decide) (Nat.le_of_not_lt hlt)]
      have hfirst := ih (n / 10) (by omega) (by omega)
      cases hdigits : Nat.toDigits 10 (n / 10) with
      | nil => exact absurd hdigits Nat.toDigits_ne_nil
      | cons d ds =>
        rw [hdigits] at hfirst
        exact hfirst

/-- The digits of a number are taken off as a whole. -/
theorem digits?_toDigits (n : Nat) {rest : List Char} (hrest : Ends rest) :
    digits? (Nat.toDigits 10 n ++ rest) = some (Nat.toDigits 10 n, rest) := by
  have hdigits : ∀ c ∈ Nat.toDigits 10 n, c.isDigit = true := fun c hc =>
    Nat.isDigit_of_mem_toDigits (by decide) (by decide) hc
  have htake : rest.takeWhile Char.isDigit = [] ∧ rest.dropWhile Char.isDigit = rest := by
    cases rest with
    | nil => exact ⟨rfl, rfl⟩
    | cons c rest => simp [hrest.head.1]
  rw [digits?, isDigit_eq, List.takeWhile_append_of_pos hdigits,
    List.dropWhile_append_of_pos hdigits, htake.1, htake.2, List.append_nil]
  cases h : Nat.toDigits 10 n with
  | nil => exact absurd h Nat.toDigits_ne_nil
  | cons d ds => rfl

/-- The digits of a number are read as its whole part. -/
theorem whole?_toDigits (n : Nat) {rest : List Char} (hrest : Ends rest) :
    whole? (Nat.toDigits 10 n ++ rest) = some (Nat.toDigits 10 n, rest) := by
  rw [whole?, digits?_toDigits n hrest]
  split
  · -- Only zero begins with a zero, and it has no further digit.
    rename_i d ds _ h
    have hdigits : Nat.toDigits 10 n = '0' :: d :: ds := (Prod.mk.inj (Option.some.inj h)).1
    rcases Nat.eq_zero_or_pos n with rfl | hn
    · cases hdigits
    · exact absurd (by rw [hdigits]; rfl) (head_toDigits_ne hn)
  · rfl

/-- Digits after a number make it no smaller. -/
theorem le_ofDigitChars (digits : List Char) (start : Nat) :
    start ≤ Nat.ofDigitChars 10 digits start := by
  induction digits generalizing start with
  | nil => exact Nat.le_refl start
  | cons c digits ih =>
    rw [Nat.ofDigitChars_cons]
    exact Nat.le_trans (by omega) (ih _)

/-- Digits that fit are taken as the number that they write. -/
theorem fitted_of_lt {digits : List Char} {start : Nat}
    (h : Nat.ofDigitChars 10 digits start < UInt64.size) :
    fitted start digits = (Nat.ofDigitChars 10 digits start, []) := by
  induction digits generalizing start with
  | nil => rfl
  | cons c digits ih =>
    rw [Nat.ofDigitChars_cons, Nat.mul_comm] at h ⊢
    have hnext := Nat.lt_of_le_of_lt (le_ofDigitChars digits _) h
    rw [fitted]
    simp only [if_pos hnext]
    exact ih h

/-- The digits of a number that fits are read as that number, or as its negative. -/
theorem integer?_toDigits {n : Nat} (h : n < UInt64.size) (negative : Bool) :
    integer? negative (Nat.toDigits 10 n)
      = if !negative then some (n : Int)
        else if 0 < n ∧ n ≤ Nat.pow 2 63 then some (-(n : Int)) else none := by
  rw [integer?, fitted_of_lt (by rw [Nat.ofDigitChars_ten_toDigits]; exact h),
    Nat.ofDigitChars_ten_toDigits]

/-- The digits of a number are read without a fraction and without an exponent. -/
theorem unsigned_toDigits {negative : Bool} {n : Nat} {k : Int}
    (h : integer? negative (Nat.toDigits 10 n) = some k) {rest : List Char} (hrest : Ends rest) :
    unsigned negative (Nat.toDigits 10 n ++ rest) = some (.number (.integer k), rest) := by
  have hfraction : fraction? rest = some ([], rest) := by
    cases rest with
    | nil => rfl
    | cons c rest =>
      rw [fraction?]
      intro _ heq
      exact hrest.head.2.1 (List.cons.inj heq).1
  have hexponent : exponent? rest = some (none, rest) := by
    cases rest with
    | nil => rfl
    | cons c rest =>
      obtain ⟨-, -, he, hE⟩ := hrest.head
      simp [exponent?, he, hE]
  simp only [unsigned, whole?_toDigits n hrest, hfraction, hexponent, h, Option.bind_eq_bind,
    Option.bind_some]

/-- A printed integer is read as that integer, as long as it fits. -/
theorem number_integer {n : Int} (hlow : Int64.minValue.toInt ≤ n) (hhigh : n < UInt64.size)
    {rest : List Char} (hrest : Ends rest) :
    number ((toString n).toList ++ rest) = some (.number (.integer n), rest) := by
  cases n with
  | ofNat n =>
    have hinteger : integer? false (Nat.toDigits 10 n) = some (n : Int) := by
      rw [integer?_toDigits (Int.ofNat_lt.1 hhigh)]
      rfl
    show number ((toString n).toList ++ rest) = _
    rw [toList_toString, number, unsigned_toDigits hinteger hrest]
    · rfl
    · -- The digits do not begin with a minus.
      intro rest' heq
      obtain ⟨d, digits, h, hd⟩ := head_toString n
      rw [← toList_toString, h] at heq
      rw [(List.cons.inj heq).1] at hd
      exact absurd hd (by decide)
  | negSucc n =>
    have hle : n + 1 ≤ Nat.pow 2 63 := by
      rw [Int64.toInt_minValue] at hlow
      show n + 1 ≤ 9223372036854775808
      omega
    have hinteger : integer? true (Nat.toDigits 10 (n + 1)) = some (-((n + 1 : Nat) : Int)) := by
      rw [integer?_toDigits (Nat.lt_of_le_of_lt hle (by decide)), if_neg (by decide),
        if_pos ⟨Nat.succ_pos n, hle⟩]
    rw [toList_toString_negSucc, toList_toString, List.cons_append, number,
      unsigned_toDigits hinteger hrest]
    rfl

end Grounder.Json.Reader
