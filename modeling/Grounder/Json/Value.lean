import Grounder.Json.Double

/-!
# `Grounder.Json.Value`: JSON values as written

A value keeps what a reader may have to judge by: the order and the repetition of an object's
members, and whether a number was written as an integer.
-/

set_option autoImplicit false

namespace Grounder.Json

/-- A number. An integer is written without fraction and exponent and fits 64 bits, with or without
sign. All other numbers are doubles, a negative zero among them. -/
inductive Number where
  | integer (n : Int)
  | double (negative : Bool) (magnitude : Double)
  deriving DecidableEq, Repr

/-- A JSON value. -/
inductive Value where
  | null
  | bool (b : Bool)
  | number (n : Number)
  | string (s : String)
  | array (items : List Value)
  | object (members : List (String × Value))
  /-- What can be passed over and not read: a string, or an object with a member name, in which an
  escape writes half of a surrogate pair, or a number beyond the largest double. -/
  | unreadable
  deriving Repr

mutual

/-- Whether every part can be read, with at most `nesting` arrays and objects inside each other. -/
def Value.isReadable (nesting : Nat) : Value → Bool
  | .null | .bool _ | .number _ | .string _ => true
  | .array items => 0 < nesting && areReadable (nesting - 1) items
  | .object members => 0 < nesting && membersAreReadable (nesting - 1) members
  | .unreadable => false

/-- `Value.isReadable` for the items of an array. -/
def areReadable (nesting : Nat) : List Value → Bool
  | [] => true
  | v :: rest => v.isReadable nesting && areReadable nesting rest

/-- `Value.isReadable` for the members of an object. -/
def membersAreReadable (nesting : Nat) : List (String × Value) → Bool
  | [] => true
  | (_, v) :: rest => v.isReadable nesting && membersAreReadable nesting rest

end

mutual

/-- The value with every object's repeated members reduced to the last of each name. -/
def Value.settled : Value → Value
  | .array items => .array (allSettled items)
  | .object members => .object (membersSettled members)
  | v => v

/-- `Value.settled` for every item. -/
def allSettled : List Value → List Value
  | [] => []
  | v :: rest => v.settled :: allSettled rest

/-- The members whose name does not come again, each settled. -/
def membersSettled : List (String × Value) → List (String × Value)
  | [] => []
  | (name, v) :: rest =>
    if (rest.map Prod.fst).contains name then membersSettled rest
    else (name, v.settled) :: membersSettled rest

end

end Grounder.Json
