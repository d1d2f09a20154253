import Grounder.Json.Value

/-!
# `Grounder.Json.Reader`: the strict JSON reader

The reader takes exactly the JSON grammar: no comments, no trailing commas, no byte order mark, no
control characters inside strings. It sets no limit on nesting, and what is well written but cannot
be held is `Value.unreadable`, since it matters only in the parts of the value that are used.

The readers below take the characters that are left and answer what they read together with the
rest. `value` and its companions spend one unit of `fuel` per call, and every call reads at least
one character, so one unit more than the length of the text is always enough.
-/

set_option autoImplicit false

namespace Grounder.Json.Reader

def isSpace (c : Char) : Bool := c == ' ' || c == '\t' || c == '\n' || c == '\r'

/-- The rest after white space. -/
def skip (cs : List Char) : List Char := cs.dropWhile isSpace

/-! ### Strings -/

def hexDigit? (c : Char) : Option Nat :=
  if '0' ≤ c ∧ c ≤ '9' then some (c.toNat - '0'.toNat)
  else if 'a' ≤ c ∧ c ≤ 'f' then some (c.toNat - 'a'.toNat + 10)
  else if 'A' ≤ c ∧ c ≤ 'F' then some (c.toNat - 'A'.toNat + 10)
  else none

/-- The code unit that four hexadecimal digits write. -/
def unit? (a b c d : Char) : Option Nat :=
  match hexDigit? a, hexDigit? b, hexDigit? c, hexDigit? d with
  | some a, some b, some c, some d => some (((a * 16 + b) * 16 + c) * 16 + d)
  | _, _, _, _ => none

def isHighHalf (unit : Nat) : Bool := 0xD800 ≤ unit && unit ≤ 0xDBFF

def isLowHalf (unit : Nat) : Bool := 0xDC00 ≤ unit && unit ≤ 0xDFFF

/-- The character that the two halves of a surrogate pair stand for. -/
def joinHalves (high low : Nat) : Char :=
  Char.ofNat (0x10000 + (high - 0xD800) * 0x400 + (low - 0xDC00))

/-- The character that a backslash and a letter write. -/
def escaped? : Char → Option Char
  | '"' => some '"'
  | '\\' => some '\\'
  | '/' => some '/'
  | 'b' => some '\x08'
  | 'f' => some '\x0c'
  | 'n' => some '\n'
  | 'r' => some '\r'
  | 't' => some '\t'
  | _ => none

/-- What was read of a string: its characters, last one first, the high half that waits for its
low half, and whether every half so far had its partner. -/
structure Partial where
  seen : List Char
  high : Option Nat
  intact : Bool

namespace Partial

def empty : Partial := ⟨[], none, true⟩

/-- A character that is not a half of a pair. -/
def push (p : Partial) (c : Char) : Partial := ⟨c :: p.seen, none, p.intact && p.high.isNone⟩

/-- A code unit that an escape writes. -/
def pushUnit (p : Partial) (unit : Nat) : Partial :=
  if isHighHalf unit then ⟨p.seen, some unit, p.intact && p.high.isNone⟩
  else if isLowHalf unit then
    match p.high with
    | some high => ⟨joinHalves high unit :: p.seen, none, p.intact⟩
    | none => ⟨p.seen, none, false⟩
  else p.push (Char.ofNat unit)

/-- The text at the closing quote, if no half was left alone. -/
def text? (p : Partial) : Option String :=
  if p.intact && p.high.isNone then some (String.ofList p.seen.reverse) else none

end Partial

/-- The string up to the closing quote. The answer holds no text if half of a surrogate pair stood
alone. -/
def text (p : Partial) : List Char → Option (Option String × List Char)
  | '"' :: rest => some (p.text?, rest)
  | '\\' :: 'u' :: a :: b :: c :: d :: rest =>
    match unit? a b c d with
    | none => none
    | some unit => text (p.pushUnit unit) rest
  | '\\' :: letter :: rest =>
    match escaped? letter with
    | none => none
    | some c => text (p.push c) rest
  | c :: rest => if c.toNat < 0x20 then none else text (p.push c) rest
  | [] => none

/-! ### Numbers -/

def isDigit (c : Char) : Bool := '0' ≤ c && c ≤ '9'

/-- The number that digits write. -/
def ofDigits (digits : List Char) : Nat :=
  digits.foldl (fun n c => n * 10 + (c.toNat - '0'.toNat)) 0

/-- The digits in front, of which there has to be one, and the rest. -/
def digits? (cs : List Char) : Option (List Char × List Char) :=
  match cs.takeWhile isDigit with
  | [] => none
  | digits => some (digits, cs.dropWhile isDigit)

/-- The whole part: digits without a leading zero. -/
def whole? (cs : List Char) : Option (List Char × List Char) :=
  match digits? cs with
  | some ('0' :: _ :: _, _) => none
  | found => found

/-- The digits after a decimal point, none without a point. -/
def fraction? : List Char → Option (List Char × List Char)
  | '.' :: rest => digits? rest
  | rest => some ([], rest)

/-- The exponent, if one is written. -/
def exponent? : List Char → Option (Option Int × List Char)
  | c :: rest =>
    if c = 'e' ∨ c = 'E' then
      match rest with
      | '-' :: rest' => (digits? rest').map fun (ds, r) => (some (-(ofDigits ds : Int)), r)
      | '+' :: rest' => (digits? rest').map fun (ds, r) => (some (ofDigits ds : Int), r)
      | rest' => (digits? rest').map fun (ds, r) => (some (ofDigits ds : Int), r)
    else some (none, c :: rest)
  | [] => some (none, [])

/-- The number that `start` becomes when digits are written after it, as far as it fits 64 bits,
and the digits from the first one on that do not fit. -/
def fitted (start : Nat) : List Char → Nat × List Char
  | [] => (start, [])
  | c :: rest =>
    let next := start * 10 + (c.toNat - '0'.toNat)
    if next < UInt64.size then fitted next rest else (start, c :: rest)

/-- The double that the parts of a number write. Digits that do not fit are dropped: in the whole
part each still counts as a place, in the fraction it does not. -/
def double (negative : Bool) (whole fraction : List Char) (exponent : Int) : Value :=
  let (start, beyond) := fitted 0 whole
  let (significand, dropped) := fitted start fraction
  let places : Int := fraction.length - dropped.length
  match Double.ofDecimal? significand (exponent + beyond.length - places) with
  | some magnitude => .number (.double negative magnitude)
  | none => .unreadable

/-- The integer that whole digits write, if it fits 64 bits and is no negative zero. -/
def integer? (negative : Bool) (whole : List Char) : Option Int :=
  match fitted 0 whole with
  | (n, []) =>
    if !negative then some n
    else if 0 < n ∧ n ≤ Nat.pow 2 63 then some (-n)
    else none
  | _ => none

/-- A number without its sign, of which `negative` tells. -/
def unsigned (negative : Bool) (cs : List Char) : Option (Value × List Char) := do
  let (whole, afterWhole) ← whole? cs
  let (fraction, afterFraction) ← fraction? afterWhole
  let (exponent, rest) ← exponent? afterFraction
  match fraction, exponent, integer? negative whole with
  | [], none, some n => some (.number (.integer n), rest)
  | _, _, _ => some (double negative whole fraction (exponent.getD 0), rest)

def number : List Char → Option (Value × List Char)
  | '-' :: rest => unsigned true rest
  | rest => unsigned false rest

/-! ### Values -/

/-- The object with these members, unless a name among them cannot be read. -/
def object (intact : Bool) (members : List (String × Value)) : Value :=
  if intact then .object members else .unreadable

mutual

/-- A value, without white space in front. -/
def value : Nat → List Char → Option (Value × List Char)
  | 0, _ => none
  | fuel + 1, cs =>
    match cs with
    | 'n' :: 'u' :: 'l' :: 'l' :: rest => some (.null, rest)
    | 't' :: 'r' :: 'u' :: 'e' :: rest => some (.bool true, rest)
    | 'f' :: 'a' :: 'l' :: 's' :: 'e' :: rest => some (.bool false, rest)
    | '"' :: rest =>
      match text .empty rest with
      | none => none
      | some (none, rest') => some (.unreadable, rest')
      | some (some s, rest') => some (.string s, rest')
    | '[' :: rest =>
      match skip rest with
      | ']' :: rest' => some (.array [], rest')
      | rest' => items fuel [] rest'
    | '{' :: rest =>
      match skip rest with
      | '}' :: rest' => some (.object [], rest')
      | rest' => members fuel true [] rest'
    | cs => number cs

/-- The items of an array from one item on, where `seen` holds those before it, last one first. -/
def items : Nat → List Value → List Char → Option (Value × List Char)
  | 0, _, _ => none
  | fuel + 1, seen, cs =>
    match value fuel cs with
    | none => none
    | some (v, rest) =>
      match skip rest with
      | ',' :: rest' => items fuel (v :: seen) (skip rest')
      | ']' :: rest' => some (.array (v :: seen).reverse, rest')
      | _ => none

/-- The members of an object from one member on, where `seen` holds those before it, last one
first. -/
def members : Nat → Bool → List (String × Value) → List Char → Option (Value × List Char)
  | 0, _, _, _ => none
  | fuel + 1, intact, seen, cs =>
    match cs with
    | '"' :: rest =>
      match text .empty rest with
      | none => none
      | some (name, afterName) =>
        match skip afterName with
        | ':' :: afterColon =>
          match value fuel (skip afterColon) with
          | none => none
          | some (v, rest') =>
            let intact' := intact && name.isSome
            let seen' := (name.getD "", v) :: seen
            match skip rest' with
            | ',' :: rest'' => members fuel intact' seen' (skip rest'')
            | '}' :: rest'' => some (object intact' seen'.reverse, rest'')
            | _ => none
        | _ => none
    | _ => none

end

/-- The value that is the whole text, up to white space around it. -/
def read (s : String) : Option Value :=
  match value (s.toList.length + 1) (skip s.toList) with
  | some (v, rest) => if (skip rest).isEmpty then some v else none
  | none => none

end Grounder.Json.Reader
