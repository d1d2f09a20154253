/-!
# `Grounder.Text.Decimal`: reading integers

An integer is an optional sign and at least one decimal digit, with nothing around them, and has to
fit 64 bits. Leading zeros and a minus before zero are fine.
-/

set_option autoImplicit false

namespace Grounder.Text

/-- The value of a decimal digit. -/
def digit? (c : Char) : Option Nat :=
  if '0' ≤ c ∧ c ≤ '9' then some (c.toNat - '0'.toNat) else none

/-- The number that `value` becomes when the digits are written after it. -/
def appendDigits? (value : Nat) : List Char → Option Nat
  | [] => some value
  | c :: rest => (digit? c).bind fun d => appendDigits? (value * 10 + d) rest

/-- The number that at least one digit writes. -/
def natural? : List Char → Option Nat
  | [] => none
  | c :: rest => appendDigits? 0 (c :: rest)

/-- The integer as a word of 64 bits, if it fits. -/
def word? (n : Int) : Option Int64 :=
  if Int64.minValue.toInt ≤ n ∧ n ≤ Int64.maxValue.toInt then some (Int64.ofInt n) else none

/-- The integer that a sign and digits write, whatever its size. -/
def signed? : List Char → Option Int
  | '-' :: digits => (natural? digits).map fun n => -(n : Int)
  | '+' :: digits => (natural? digits).map fun n => (n : Int)
  | digits => (natural? digits).map fun n => (n : Int)

/-- The 64-bit integer that a text writes. -/
def integer? (s : String) : Option Int64 := (signed? s.toList).bind word?

end Grounder.Text
