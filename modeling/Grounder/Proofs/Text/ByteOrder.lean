import Mathlib.Algebra.GroupWithZero.Nat
import Mathlib.Tactic.SplitIfs

/-!
# `Grounder.Proofs.Text.ByteOrder`: texts in the order of their bytes

Texts are compared character by character, and a system that keeps them as bytes compares these.
Both orders are the same (`utf8Bytes_lt_iff`), since UTF-8 was made so that they are.

A character is written as a first byte and up to three others. The first byte is the first digits of
the code with a mark that tells how many bytes follow (`firstByte`), and the others are the last
digits to the base 64 (`trail`). A character that more bytes follow has a larger mark, and of two
characters with the same first byte the digits decide (`firstByte_cases`, `trail_lt`). So the bytes
of two different characters differ in a byte of both, and what follows them does not matter
(`utf8EncodeChar_append_lt`).
-/

set_option autoImplicit false

namespace Grounder

/-- The bytes of a text in UTF-8. -/
def utf8Bytes (s : String) : List UInt8 := s.toUTF8.data.toList

namespace Utf8

/-! ### Characters -/

/-- How many bytes follow the first byte of a character. -/
def trailLength (code : Nat) : Nat :=
  if code < 0x80 then 0 else if code < 0x800 then 1 else if code < 0x10000 then 2 else 3

/-- The first digits of a code with their mark. -/
def firstByte (code : Nat) : Nat :=
  if code < 0x80 then code
  else if code < 0x800 then code / 64 + 0xc0
  else if code < 0x10000 then code / 64 ^ 2 + 0xe0
  else code / 64 ^ 3 + 0xf0

/-- The last `n` digits of a code to the base 64, a byte for each. -/
def trail : (n : Nat) → (code : Nat) → List UInt8
  | 0, _ => []
  | n + 1, code => UInt8.ofNat (code / 64 ^ n % 64 + 0x80) :: trail n code

/-- The code of a character is one of those that four bytes can write. -/
theorem toNat_lt (c : Char) : c.toNat < 0x110000 := by
  have hvalid := c.valid
  simp only [UInt32.isValidChar, Nat.isValidChar] at hvalid
  show c.val.toNat < 0x110000
  omega

/-- A character is written as its first byte and its trail. -/
theorem utf8EncodeChar_eq (c : Char) : String.utf8EncodeChar c =
    UInt8.ofNat (firstByte c.toNat) :: trail (trailLength c.toNat) c.toNat := by
  have hcode := toNat_lt c
  have hval : c.val.toNat = c.toNat := rfl
  rw [String.utf8EncodeChar, hval, firstByte, trailLength]
  generalize c.toNat = code at hcode
  by_cases h1 : code < 0x80
  · rw [if_pos (by omega), if_pos h1, if_pos h1]
    rfl
  rw [if_neg (by omega), if_neg h1, if_neg h1]
  -- The first digits are fewer than the first byte has room for.
  by_cases h2 : code < 0x800
  · rw [if_pos (by omega), if_pos h2, if_pos h2, Nat.mod_eq_of_lt (by omega : code / 64 < 0x20)]
    simp [trail]
  rw [if_neg (by omega), if_neg h2, if_neg h2]
  by_cases h3 : code < 0x10000
  · rw [if_pos (by omega), if_pos h3, if_pos h3, Nat.mod_eq_of_lt (by omega : code / 4096 < 0x10)]
    simp [trail]
  · rw [if_neg (by omega), if_neg h3, if_neg h3,
      Nat.mod_eq_of_lt (by omega : code / 262144 < 0x08)]
    simp [trail]

/-- First bytes are bytes. -/
theorem firstByte_lt {code : Nat} (h : code < 0x110000) : firstByte code < UInt8.size := by
  rw [firstByte, UInt8.size]
  split
  · omega
  split
  · omega
  split <;> omega

/-- The first byte of a larger code is larger, or the codes have the same first digits and as many
others. -/
theorem firstByte_cases {code code' : Nat} (h : code < code') :
    firstByte code < firstByte code' ∨ firstByte code = firstByte code' ∧
      trailLength code = trailLength code' ∧
      code / 64 ^ trailLength code = code' / 64 ^ trailLength code := by
  unfold firstByte trailLength
  -- The larger code is the one that more bytes follow, or both are followed by as many.
  split_ifs <;> omega

/-- Of two codes with the same first digits, the digits after them decide. -/
theorem trail_lt (n : Nat) {code code' : Nat} (hlt : code < code')
    (hsame : code / 64 ^ n = code' / 64 ^ n) (rest rest' : List UInt8) :
    trail n code ++ rest < trail n code' ++ rest' := by
  induction n with
  | zero =>
    rw [Nat.pow_zero, Nat.div_one, Nat.div_one] at hsame
    omega
  | succ n ih =>
    rw [trail, trail, List.cons_append, List.cons_append, List.cons_lt_cons_iff]
    rw [Nat.pow_succ, ← Nat.div_div_eq_div_mul, ← Nat.div_div_eq_div_mul] at hsame
    have hle : code / 64 ^ n ≤ code' / 64 ^ n := Nat.div_le_div_right (Nat.le_of_lt hlt)
    rcases Nat.eq_or_lt_of_le hle with heq | hlt'
    · rw [heq]
      exact Or.inr ⟨rfl, ih heq⟩
    · refine Or.inl ((UInt8.ofNat_lt_iff_lt ?_ ?_).2 ?_)
      · rw [UInt8.size]
        omega
      · rw [UInt8.size]
        omega
      · omega

/-- The bytes of a smaller character are smaller, whatever follows them. -/
theorem utf8EncodeChar_append_lt {c d : Char} (h : c < d) (rest rest' : List UInt8) :
    String.utf8EncodeChar c ++ rest < String.utf8EncodeChar d ++ rest' := by
  rw [utf8EncodeChar_eq, utf8EncodeChar_eq, List.cons_append, List.cons_append,
    List.cons_lt_cons_iff]
  have hlt : c.toNat < d.toNat := h
  rcases firstByte_cases hlt with hfirst | ⟨hfirst, hlength, hsame⟩
  · exact Or.inl ((UInt8.ofNat_lt_iff_lt (firstByte_lt (toNat_lt c)) (firstByte_lt (toNat_lt d))).2
      hfirst)
  · rw [hfirst, ← hlength]
    exact Or.inr ⟨rfl, trail_lt _ hlt hsame rest rest'⟩

/-- What two lists begin with does not matter. -/
theorem append_left_lt_iff (bytes rest rest' : List UInt8) :
    bytes ++ rest < bytes ++ rest' ↔ rest < rest' := by
  induction bytes with
  | nil => rfl
  | cons byte bytes ih =>
    rw [List.cons_append, List.cons_append, List.cons_lt_cons_iff, ih]
    simp

/-- Characters that come one after the other are compared like their bytes. -/
theorem flatMap_utf8EncodeChar_lt_iff (cs ds : List Char) :
    cs.flatMap String.utf8EncodeChar < ds.flatMap String.utf8EncodeChar ↔ cs < ds := by
  induction cs generalizing ds with
  | nil =>
    cases ds with
    | nil => simp
    | cons d ds =>
      rw [List.flatMap_nil, List.flatMap_cons, utf8EncodeChar_eq, List.cons_append]
      exact iff_of_true (List.nil_lt_cons _ _) (List.nil_lt_cons _ _)
  | cons c cs ih =>
    cases ds with
    | nil => exact iff_of_false (List.not_lt_nil _) (List.not_lt_nil _)
    | cons d ds =>
      rw [List.flatMap_cons, List.flatMap_cons, List.cons_lt_cons_iff]
      rcases Std.lt_trichotomy c d with h | rfl | h
      · exact iff_of_true (utf8EncodeChar_append_lt h _ _) (Or.inl h)
      · rw [append_left_lt_iff, ih, or_iff_right (Char.lt_irrefl c), and_iff_right rfl]
      · refine iff_of_false (List.lt_asymm (utf8EncodeChar_append_lt h _ _)) ?_
        rintro (h' | ⟨rfl, -⟩)
        · exact Char.lt_asymm h h'
        · exact Char.lt_irrefl _ h

end Utf8

/-! ### Texts -/

/-- The bytes of a text are those of its characters. -/
theorem utf8Bytes_eq (s : String) : utf8Bytes s = s.toList.flatMap String.utf8EncodeChar := by
  rw [utf8Bytes, String.toUTF8_eq_toByteArray, ← String.utf8Encode_toList, List.utf8Encode,
    List.toList_data_toByteArray]

/-- Texts are in the order of their bytes. -/
theorem utf8Bytes_lt_iff {s t : String} : utf8Bytes s < utf8Bytes t ↔ s < t := by
  rw [utf8Bytes_eq, utf8Bytes_eq, Utf8.flatMap_utf8EncodeChar_lt_iff]
  exact Iff.rfl

/-- Texts are in the order of their bytes. -/
theorem utf8Bytes_le_iff {s t : String} : utf8Bytes s ≤ utf8Bytes t ↔ s ≤ t := by
  rw [← List.not_lt, utf8Bytes_lt_iff, String.not_lt]

/-- Texts with the same bytes are the same. -/
theorem utf8Bytes_inj {s t : String} : utf8Bytes s = utf8Bytes t ↔ s = t := by
  constructor
  · intro h
    refine String.le_antisymm (utf8Bytes_le_iff.1 ?_) (utf8Bytes_le_iff.1 ?_)
    · exact h ▸ List.le_refl _
    · exact h ▸ List.le_refl _
  · rintro rfl
    rfl

end Grounder
