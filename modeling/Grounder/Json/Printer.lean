import Grounder.Json.Value

/-!
# `Grounder.Json.Printer`: JSON text of a value

A value prints on one line or spread over indented lines. The two differ in the white space that a
`Layout` puts around the parts and in nothing else.
-/

set_option autoImplicit false

namespace Grounder.Json

/-- The white space of a printed value: before an item at some depth, and after a colon. -/
structure Layout where
  beforeItem : Nat → List Char
  afterColon : List Char

/-- Everything on one line. -/
def Layout.compact : Layout := ⟨fun _ => [], []⟩

/-- Every item on a line of its own, two spaces further in than what it belongs to. -/
def Layout.spread : Layout := ⟨fun depth => '\n' :: List.replicate (2 * depth) ' ', [' ']⟩

namespace Printer

/-- The lower-case hexadecimal digit of a number below sixteen. -/
def hexDigit (n : Nat) : Char := Nat.digitChar n

/-- A character inside a string. Only quotes, backslashes and controls are escaped. -/
def escape (c : Char) : List Char :=
  if c = '"' then ['\\', '"']
  else if c = '\\' then ['\\', '\\']
  else if c = '\n' then ['\\', 'n']
  else if c = '\r' then ['\\', 'r']
  else if c = '\t' then ['\\', 't']
  else if c = '\x08' then ['\\', 'b']
  else if c = '\x0c' then ['\\', 'f']
  else if c.toNat < 0x20 then
    ['\\', 'u', '0', '0', hexDigit (c.toNat / 16), hexDigit (c.toNat % 16)]
  else [c]

def text (s : String) : List Char := '"' :: s.toList.flatMap escape ++ ['"']

def number : Number → List Char
  | .integer n => (toString n).toList
  | .double negative magnitude =>
    let (digits, places) := magnitude.toDecimal
    (if negative then ['-'] else []) ++ (toString digits).toList ++ ['e', '-'] ++
      (toString places).toList

mutual

/-- The text of a value whose parts stand at depth `depth + 1`. -/
def value (l : Layout) (depth : Nat) : Value → List Char
  | .null | .unreadable => ['n', 'u', 'l', 'l']
  | .bool true => ['t', 'r', 'u', 'e']
  | .bool false => ['f', 'a', 'l', 's', 'e']
  | .number n => number n
  | .string s => text s
  | .array [] => ['[', ']']
  | .array (v :: rest) =>
    '[' :: l.beforeItem (depth + 1) ++ value l (depth + 1) v ++ items l depth rest
  | .object [] => ['{', '}']
  | .object ((name, v) :: rest) =>
    '{' :: l.beforeItem (depth + 1) ++ text name ++ ':' :: l.afterColon ++
      value l (depth + 1) v ++ members l depth rest

/-- The items after the first, each with the comma before it, and the closing bracket. -/
def items (l : Layout) (depth : Nat) : List Value → List Char
  | [] => l.beforeItem depth ++ [']']
  | v :: rest =>
    ',' :: l.beforeItem (depth + 1) ++ value l (depth + 1) v ++ items l depth rest

/-- The members after the first, each with the comma before it, and the closing brace. -/
def members (l : Layout) (depth : Nat) : List (String × Value) → List Char
  | [] => l.beforeItem depth ++ ['}']
  | (name, v) :: rest =>
    ',' :: l.beforeItem (depth + 1) ++ text name ++ ':' :: l.afterColon ++
      value l (depth + 1) v ++ members l depth rest

end

end Printer

/-- The value on one line. -/
def Value.compact (v : Value) : String := String.ofList (Printer.value .compact 0 v)

/-- The value on indented lines. -/
def Value.spread (v : Value) : String := String.ofList (Printer.value .spread 0 v)

end Grounder.Json
