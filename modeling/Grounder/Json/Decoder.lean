import Grounder.Json.Value
import Grounder.Text.Decimal

/-!
# `Grounder.Json.Decoder`: reading records out of JSON values

A record is written as an object of its fields, or as an array of them in declaration order where
trailing fields may be left out. Unknown members are passed over whatever they hold. Known members
may not be repeated.

A decoder is told how many arrays and objects it may still enter, since the parts of a value that
are read may not nest deeper than `maxNesting`, and the parts that are passed over may.
-/

set_option autoImplicit false

namespace Grounder.Json

/-- How deep the arrays and objects that are read may nest. -/
def maxNesting : Nat := 127

/-- Reads a value into which `nesting` more levels may be entered. -/
abbrev Decoder (α : Type) := (nesting : Nat) → Value → Option α

namespace Decoder

def string : Decoder String
  | _, .string s => some s
  | _, _ => none

def bool : Decoder Bool
  | _, .bool b => some b
  | _, _ => none

/-- An integer of 64 bits. -/
def word : Decoder Int64
  | _, .number (.integer n) => Text.word? n
  | _, _ => none

/-- An array, every item of which is read by `d`. -/
def list {α : Type} (d : Decoder α) : Decoder (List α)
  | nesting + 1, .array items => items.mapM (d nesting)
  | _, _ => none

/-- What `d` reads, or nothing for `null`. -/
def nullable {α : Type} (d : Decoder α) : Decoder (Option α)
  | _, .null => some none
  | nesting, v => (d nesting v).map some

/-- Any value that can be read, each of its objects reduced to the last members of each name. -/
def any : Decoder Value := fun nesting v =>
  if v.isReadable nesting then some v.settled else none

end Decoder

/-- The known fields that a record's value gives, and how far their values may still nest. -/
structure Record where
  nesting : Nat
  fields : List (String × Value)

namespace Record

/-- The record with fields of these names that a value writes. -/
def of? (names : List String) (nesting : Nat) : Value → Option Record
  | .object members =>
    let known := members.filter fun member => names.contains member.1
    if 0 < nesting ∧ (known.map Prod.fst).Nodup then some ⟨nesting - 1, known⟩ else none
  | .array items =>
    if 0 < nesting ∧ items.length ≤ names.length then some ⟨nesting - 1, names.zip items⟩ else none
  | _ => none

/-- The value of a field that has to be there. -/
def required {α : Type} (r : Record) (name : String) (d : Decoder α) : Option α :=
  (r.fields.lookup name).bind (d r.nesting)

/-- The value of a field, or `default` where it is left out. -/
def optional {α : Type} (r : Record) (name : String) (d : Decoder α) (default : α) : Option α :=
  match r.fields.lookup name with
  | some v => d r.nesting v
  | none => some default

end Record

/-! ### Values that name their kind

A value of several kinds names its kind in the member `kind` of an object or in the first item of
an array. What is left is the record of that kind. Such a value is read as a whole before its kind
is known, so none of its parts may be beyond reading. -/

/-- The kind that a value names. Only inside another value of several kinds may a kind be given by
its position. -/
def kind? (byPosition : Bool) (kinds : List String) : Value → Option String
  | .string s => if kinds.contains s then some s else none
  | .number (.integer n) => if byPosition ∧ 0 ≤ n then kinds[n.toNat]? else none
  | _ => none

/-- The kind of a value and the record that is left. -/
def tagged? (byPosition : Bool) (kinds : List String) (nesting : Nat) (v : Value) :
    Option (String × Value) :=
  if v.isReadable nesting then
    match v with
    | .object members =>
      match members.filter fun member => member.1 = "kind" with
      | [(_, k)] => (kind? byPosition kinds k).map fun kind =>
          (kind, .object (members.filter fun member => member.1 ≠ "kind"))
      | _ => none
    | .array (k :: rest) => (kind? byPosition kinds k).map fun kind => (kind, .array rest)
    | _ => none
  else none

end Grounder.Json
