import Grounder.Text.Decimal
import Grounder.Toml.Value

/-!
# `Grounder.Toml.Scalar`: numbers, truth values and dates

A value without quotes or brackets is a word, and the word alone tells what it is. Digits may be
grouped by underscores, each of which stands between two digits. A time of the day may leave out
its seconds.

A word is well formed or not, and a number that is well formed can be read or not: `1e999` is a
float without a nearest double, and `0x` is a number without a digit.
-/

set_option autoImplicit false

namespace Grounder.Toml.Scalar

def isDigit (c : Char) : Bool := (Text.digit? c).isSome

/-- The digits of a group, without the underscores between them. -/
def grouped? (isDigit : Char → Bool) (cs : List Char) : Option (List Char) :=
  let groups := cs.splitOn '_'
  if groups.all fun g => !g.isEmpty && g.all isDigit then some groups.flatten else none

/-- The digits of a decimal number, without a leading zero. -/
def decimal? (cs : List Char) : Option (List Char) :=
  match grouped? isDigit cs with
  | some ('0' :: _ :: _) => none
  | found => found

/-- The sign in front, of which `true` is the negative one, and the rest. -/
def sign : List Char → Bool × List Char
  | '-' :: rest => (true, rest)
  | '+' :: rest => (false, rest)
  | rest => (false, rest)

/-! ### Integers -/

/-- The value of a digit of some base up to sixteen. -/
def digitOf? (base : Nat) (c : Char) : Option Nat :=
  let value :=
    if 'a' ≤ c ∧ c ≤ 'f' then some (c.toNat - 'a'.toNat + 10)
    else if 'A' ≤ c ∧ c ≤ 'F' then some (c.toNat - 'A'.toNat + 10)
    else Text.digit? c
  value.filter (· < base)

/-- The number that digits of some base write. -/
def numeral (base : Nat) (digits : List Char) : Nat :=
  digits.foldl (fun n c => n * base + (digitOf? base c).getD 0) 0

/-- The number that digits of a base other than ten write. -/
def based? (base : Nat) (cs : List Char) : Option Int :=
  (grouped? (fun c => (digitOf? base c).isSome) cs).map fun digits => (numeral base digits : Int)

def integer? : List Char → Option Int
  | '0' :: 'x' :: digits => based? 16 digits
  | '0' :: 'o' :: digits => based? 8 digits
  | '0' :: 'b' :: digits => based? 2 digits
  | cs =>
    let (negative, rest) := sign cs
    (decimal? rest).map fun digits =>
      if negative then -(numeral 10 digits : Int) else (numeral 10 digits : Int)

/-- Whether an integer can be held, at most as a word of 128 bits with or without sign. -/
def isHeld (n : Int) : Bool := -(Nat.pow 2 127) ≤ n && n < Nat.pow 2 128

/-- Whether a word names a base other than ten and has no digits. -/
def isEmptyNumber (cs : List Char) : Bool :=
  cs = ['0', 'x'] || cs = ['0', 'o'] || cs = ['0', 'b']

/-- Whether a word begins as a decimal integer with groups of digits does, and has a digit of base
sixteen on either side of each underscore. What else is in a group is not looked at. -/
def hasGroups (cs : List Char) : Bool :=
  let isEnd (c : Option Char) : Bool := (c.bind (digitOf? 16)).isSome
  match (sign cs).2.splitOn '_' with
  | first :: second :: rest =>
    first.head? != some '0' && !first.isEmpty && first.all isDigit
      && (second :: rest).all (fun g => isEnd g.head?)
      && (second :: rest).dropLast.all (fun g => isEnd g.getLast?)
      && !cs.any fun c => c == '.' || c == 'e' || c == 'E' || c == ' '
  | _ => false

/-! ### Floats -/

/-- The exponent of a float: a sign and digits, leading zeros allowed. -/
def exponent? (cs : List Char) : Option Int :=
  let (negative, rest) := sign cs
  (grouped? isDigit rest).map fun digits =>
    if negative then -(numeral 10 digits : Int) else (numeral 10 digits : Int)

/-- The number of decimal digits of a number, none for zero. -/
def digitCount (n : Nat) : Nat := if n = 0 then 0 else (Nat.toDigits 10 n).length

/-- The least number that has no nearest finite double: half a step above the largest one. -/
def overflowBound : Nat := Nat.pow 2 1024 - Nat.pow 2 970

/-- Whether `mantissa * 10 ^ exponent` rounds to a finite double. Only numbers of 309 digits are
close enough to the bound to be compared with it. -/
def roundsToFinite (mantissa : Nat) (exponent : Int) : Bool :=
  let magnitude := digitCount mantissa + exponent
  if mantissa = 0 ∨ magnitude < 309 then true
  else if 309 < magnitude then false
  else if 0 ≤ exponent then mantissa * Nat.pow 10 exponent.toNat < overflowBound
  else mantissa < overflowBound * Nat.pow 10 (-exponent).toNat

/-- The mantissa and the exponent of the number that whole digits, the digits after the point and
an exponent write. -/
def number? (whole : List Char) (fraction exponent : Option (List Char)) : Option (Nat × Int) :=
  match decimal? whole, (fraction.map (grouped? isDigit)).getD (some []),
    (exponent.map exponent?).getD (some 0) with
  | some whole, some fraction, some exponent =>
    some (numeral 10 (whole ++ fraction), exponent - fraction.length)
  | _, _, _ => none

/-- What comes before the first character with a property, and what comes after it. -/
def cut (p : Char → Bool) (cs : List Char) : List Char × Option (List Char) :=
  match cs.dropWhile fun c => !p c with
  | [] => (cs, none)
  | _ :: rest => (cs.takeWhile fun c => !p c, some rest)

/-- Whether the float that a word is can be read, `none` if the word is not a float. -/
def float? (cs : List Char) : Option Bool :=
  let (_, rest) := sign cs
  if rest = ['i', 'n', 'f'] || rest = ['n', 'a', 'n'] then some true
  else
    let (mantissa, exponent) := cut (fun c => c == 'e' || c == 'E') rest
    let (whole, fraction) := cut (· == '.') mantissa
    if fraction.isNone && exponent.isNone then none
    else (number? whole fraction exponent).map fun (m, e) => roundsToFinite m e

/-! ### Dates -/

/-- The number that exactly `count` digits write. -/
def fixed? (count : Nat) (cs : List Char) : Option Nat :=
  if cs.length = count then Text.natural? cs else none

def isLeapYear (year : Nat) : Bool :=
  year % 4 == 0 && (year % 100 != 0 || year % 400 == 0)

def daysInMonth (year month : Nat) : Nat :=
  if month = 2 then if isLeapYear year then 29 else 28
  else if month = 4 ∨ month = 6 ∨ month = 9 ∨ month = 11 then 30
  else 31

/-- Whether a word is a day of the calendar. -/
def isDay (cs : List Char) : Bool :=
  match cs.splitOn '-' with
  | [y, m, d] =>
    match fixed? 4 y, fixed? 2 m, fixed? 2 d with
    | some y, some m, some d => 1 ≤ m && m ≤ 12 && 1 ≤ d && d ≤ daysInMonth y m
    | _, _, _ => false
  | _ => false

/-- Whether two digits each write an hour and a minute. -/
def isMinute (hour minute : List Char) : Bool :=
  match fixed? 2 hour, fixed? 2 minute with
  | some h, some m => h ≤ 23 && m ≤ 59
  | _, _ => false

/-- Whether two digits write a second, which may be a leap second. -/
def isSecond (second : List Char) : Bool := ((fixed? 2 second).filter (· ≤ 60)).isSome

/-- Whether a word is a time of the day, to the minute, to the second or to a fraction of one. -/
def isTime (cs : List Char) : Bool :=
  let (clock, fraction) := cut (· == '.') cs
  let isFraction := (fraction.map fun digits => !digits.isEmpty && digits.all isDigit).getD true
  match clock.splitOn ':' with
  | [h, m] => isMinute h m && fraction.isNone
  | [h, m, s] => isMinute h m && isSecond s && isFraction
  | _ => false

/-- Whether a word is the distance of a time zone. -/
def isOffset (cs : List Char) : Bool :=
  match cs.splitOn ':' with
  | [h, m] => isMinute h m
  | _ => false

/-- Whether a word is a time of the day, with or without a time zone. -/
def isZonedTime (cs : List Char) : Bool :=
  let isZone (c : Char) : Bool := c == 'Z' || c == 'z'
  match cs.getLast? with
  | some last =>
    if isZone last then isTime cs.dropLast
    else
      match cut (fun c => c == '+' || c == '-') cs with
      | (time, some offset) => isTime time && isOffset offset
      | (time, none) => isTime time
  | none => false

/-- Whether a word is a day, a time of the day, or both. -/
def isDate (cs : List Char) : Bool :=
  match cut (fun c => c == 'T' || c == 't' || c == ' ') cs with
  | (day, some time) => isDay day && isZonedTime time
  | (word, none) => isDay word || isTime word

/-! ### Words -/

/-- The value that a word writes, `none` if the word is not well formed. -/
def ofWord? (cs : List Char) : Option Value :=
  let text := String.ofList cs
  if cs = ['t', 'r', 'u', 'e'] then some (.bool true)
  else if cs = ['f', 'a', 'l', 's', 'e'] then some (.bool false)
  else
    match integer? cs, float? cs with
    | some n, _ => some (if isHeld n then .integer n else .unreadable text)
    | none, some isFinite => some (if isFinite then .float text else .unreadable text)
    | none, none =>
      if isDate cs then some (.date text)
      else if isEmptyNumber cs || hasGroups cs then some (.unreadable text)
      else none

end Grounder.Toml.Scalar
