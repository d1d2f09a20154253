/-!
# `Grounder.Json.Double`: numbers with 53 binary digits

A number that is written with a fraction or an exponent is held as a double. All doubles are whole
multiples of the least positive one, so a double is held here as a natural number of such units,
and every operation is exact arithmetic on natural numbers with one rounding at its end.

A decimal becomes a double in three roundings: of its digits, of a power of ten, and of their
product or quotient. The result is a double next to the decimal, and not always the nearest one.
-/

set_option autoImplicit false

namespace Grounder.Json

/-- A number without sign, counted in units of `2 ^ -1074`. One with more units than the largest
double stands for an overflow. -/
structure Double where
  units : Nat
  deriving DecidableEq, Repr

namespace Double

/-- The units that make up one. -/
def unitsPerOne : Nat := Nat.pow 2 1074

/-- Whether the number is not beyond the largest double. -/
def isFinite (d : Double) : Bool := d.units < Nat.pow 2 2098

/-- The quotient rounded to a whole number, where a half goes to the even neighbour. -/
def roundedQuotient (num den : Nat) : Nat :=
  let quotient := num / den
  let excess := 2 * (num % den)
  if den < excess ∨ (excess = den ∧ quotient % 2 = 1) then quotient + 1 else quotient

/-- The double nearest to a quotient of units: the quotient rounded to 53 binary digits, or to a
whole number of units where it has fewer. -/
def nearest (num den : Nat) : Double :=
  let dropped := (num / den).log2 - 52
  let step := Nat.pow 2 dropped
  ⟨roundedQuotient num (den * step) * step⟩

def ofNat (n : Nat) : Double := nearest (n * unitsPerOne) 1

def mul (a b : Double) : Double := nearest (a.units * b.units) unitsPerOne

def div (a b : Double) : Double := nearest (a.units * unitsPerOne) b.units

/-- The double nearest to a power of ten. -/
def tenTo (exponent : Nat) : Double := ofNat (Nat.pow 10 exponent)

/-- The double for `significand * 10 ^ exponent`, unless it overflows. Powers of ten end at `308`.
A smaller exponent takes a second division, and after that nothing is left of a significand of 64
binary digits. -/
def ofDecimal? (significand : Nat) (exponent : Int) : Option Double :=
  let d := ofNat significand
  let places := exponent.natAbs
  if significand = 0 then some d
  else if 0 ≤ exponent then
    if places ≤ 308 then some (d.mul (tenTo places)) |>.filter isFinite else none
  else if places ≤ 308 then some (d.div (tenTo places))
  else if places ≤ 616 then some ((d.div (tenTo 308)).div (tenTo (places - 308)))
  else some ⟨0⟩

/-- The decimal that `units` parts of size `2 ^ -places` are: its digits, and how many of them
stand behind the point. -/
def decimalOf : (places units : Nat) → Nat × Nat
  | 0, units => (units, 0)
  | places + 1, units =>
    if units % 2 = 0 then decimalOf places (units / 2)
    else (units * Nat.pow 5 (places + 1), places + 1)

/-- The decimal that the double is. -/
def toDecimal (d : Double) : Nat × Nat := decimalOf 1074 d.units

end Double

end Grounder.Json
