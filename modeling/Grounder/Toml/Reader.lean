import Grounder.Json.Reader
import Grounder.Toml.Scalar

/-!
# `Grounder.Toml.Reader`: the TOML reader

A document is read into statements, one per line unless a value spans several lines, and every
statement is put in its place at once. Nothing that the grammar does not allow is passed over. Line
ends and comments may stand between the parts of an array or an inline table, and a comma after the
last part, but a key is on one line.

As in the JSON reader, the readers take the characters that are left and answer what they read with
the rest, and `fuel` bounds the calls: every call reads at least one character, so one unit more
than the length of the text is enough.
-/

set_option autoImplicit false

namespace Grounder.Toml.Reader

def isBlank (c : Char) : Bool := c == ' ' || c == '\t'

/-- The rest after spaces and tabs. -/
def skip (cs : List Char) : List Char := cs.dropWhile isBlank

/-- Whether a character may stand in a comment or a string as it is. -/
def isPlain (c : Char) : Bool := c == '\t' || (0x20 ≤ c.toNat && c.toNat ≠ 0x7F)

/-! ### Line ends -/

/-- The rest after a line end. -/
def newline? : List Char → Option (List Char)
  | '\n' :: rest => some rest
  | '\r' :: '\n' :: rest => some rest
  | _ => none

/-- The rest after what belongs to a comment. -/
def comment (cs : List Char) : List Char := cs.dropWhile isPlain

/-- The rest after spaces, tabs and a comment. -/
def skipComment (cs : List Char) : List Char :=
  match skip cs with
  | '#' :: rest => comment rest
  | rest => rest

/-- The rest after the end of a line, before which only a comment may come. -/
def lineEnd? (cs : List Char) : Option (List Char) :=
  match skipComment cs with
  | [] => some []
  | rest => newline? rest

/-- The rest after lines that hold nothing. -/
def skipLines : Nat → List Char → List Char
  | 0, cs => cs
  | fuel + 1, cs =>
    let rest := skipComment cs
    match newline? rest with
    | some rest' => skipLines fuel rest'
    | none => rest

/-! ### Strings -/

/-- The character that a backslash and a letter write. -/
def escaped? : Char → Option Char
  | '"' => some '"'
  | '\\' => some '\\'
  | 'b' => some '\x08'
  | 'e' => some '\x1b'
  | 'f' => some '\x0c'
  | 'n' => some '\n'
  | 'r' => some '\r'
  | 't' => some '\t'
  | _ => none

/-- The character with the code that hexadecimal digits write. -/
def scalar? (digits : List Char) : Option Char :=
  if digits.all fun c => (Scalar.digitOf? 16 c).isSome then
    let n := Scalar.numeral 16 digits
    if n.isValidChar then some (Char.ofNat n) else none
  else none

/-- The character that an escape after its backslash writes. -/
def escape? : List Char → Option (Char × List Char)
  | 'x' :: a :: b :: rest => (scalar? [a, b]).map fun ch => (ch, rest)
  | 'u' :: a :: b :: c :: d :: rest => (scalar? [a, b, c, d]).map fun ch => (ch, rest)
  | 'U' :: a :: b :: c :: d :: e :: f :: g :: h :: rest =>
    (scalar? [a, b, c, d, e, f, g, h]).map fun ch => (ch, rest)
  | letter :: rest => (escaped? letter).map fun ch => (ch, rest)
  | [] => none

/-- The characters up to the closing quote, where `seen` are those before, last one first. -/
def basic : Nat → (seen : List Char) → List Char → Option (String × List Char)
  | 0, _, _ => none
  | fuel + 1, seen, cs =>
    match cs with
    | '"' :: rest => some (String.ofList seen.reverse, rest)
    | '\\' :: rest =>
      match escape? rest with
      | some (c, rest') => basic fuel (c :: seen) rest'
      | none => none
    | c :: rest => if isPlain c then basic fuel (c :: seen) rest else none
    | [] => none

/-- The characters up to the closing apostrophe, all as they are. -/
def literal (cs : List Char) : Option (String × List Char) :=
  match cs.dropWhile fun c => isPlain c && c != '\'' with
  | '\'' :: rest => some (String.ofList (cs.takeWhile fun c => isPlain c && c != '\''), rest)
  | _ => none

/-- The quotes at the end of a string over several lines: up to two that belong to it, then the
three that close it. -/
def closing? (quote : Char) (cs : List Char) : Option (List Char × List Char) :=
  let count := (cs.takeWhile (· == quote)).length
  if 3 ≤ count ∧ count ≤ 5 then some (List.replicate (count - 3) quote, cs.drop count) else none

/-- The rest after white space and line ends. -/
def skipSpace : Nat → List Char → List Char
  | 0, cs => cs
  | fuel + 1, cs =>
    match newline? (skip cs) with
    | some rest => skipSpace fuel rest
    | none => skip cs

/-- The characters of a string over several lines up to its closing quotes. With `escapes`, a
backslash writes a character, or at the end of a line takes away the white space up to the next
word. Line ends are kept as they are. -/
def multiline (quote : Char) (escapes : Bool) :
    Nat → (seen : List Char) → List Char → Option (String × List Char)
  | 0, _, _ => none
  | fuel + 1, seen, cs =>
    match closing? quote cs with
    | some (quotes, rest) => some (String.ofList (seen.reverse ++ quotes), rest)
    | none =>
      match cs with
      | [] => none
      | '\n' :: rest => multiline quote escapes fuel ('\n' :: seen) rest
      | '\r' :: '\n' :: rest => multiline quote escapes fuel ('\n' :: '\r' :: seen) rest
      | c :: rest =>
        if c = '\\' ∧ escapes then
          match newline? (skip rest) with
          | some rest' => multiline quote escapes fuel seen (skipSpace fuel rest')
          | none =>
            match escape? rest with
            | some (c', rest') => multiline quote escapes fuel (c' :: seen) rest'
            | none => none
        else if c = quote ∧ rest.head? = some quote ∧ (rest.drop 1).head? = some quote then none
        else if isPlain c then multiline quote escapes fuel (c :: seen) rest
        else none

/-- The rest after a line end that directly follows the opening quotes. -/
def afterOpening (cs : List Char) : List Char := (newline? cs).getD cs

/-! ### Keys -/

def isBareChar (c : Char) : Bool := c.isAlphanum || c == '_' || c == '-'

/-- One part of a key. -/
def simpleKey? (fuel : Nat) : List Char → Option (String × List Char)
  | '"' :: rest => basic fuel [] rest
  | '\'' :: rest => literal rest
  | cs =>
    match cs.takeWhile isBareChar with
    | [] => none
    | name => some (String.ofList name, cs.dropWhile isBareChar)

/-- How many parts a key may have, and how deep arrays and inline tables may nest. -/
def limit : Nat := 80

/-- At most `left` parts of a key with dots between them, after the parts in `path`. The answer is
the last part after those before it. -/
def keyParts? (fuel : Nat) : (left : Nat) → (path : List String) → List Char →
    Option ((List String × String) × List Char)
  | 0, _, _ => none
  | left + 1, path, cs =>
    match simpleKey? fuel cs with
    | none => none
    | some (name, rest) =>
      match skip rest with
      | '.' :: rest' => keyParts? fuel left (path ++ [name]) (skip rest')
      | rest' => some ((path, name), rest')

/-- A key, as its last part after those before it. -/
def key? (fuel : Nat) (cs : List Char) : Option ((List String × String) × List Char) :=
  keyParts? fuel limit [] cs

/-! ### Values -/

/-- Whether a character ends a word. -/
def isDelimiter (c : Char) : Bool :=
  isBlank c || c == '\n' || c == '\r' || c == '#' || c == ',' || c == '='
    || c == '[' || c == ']' || c == '\x7b' || c == '\x7d'

/-- Whether a character may stand in a word. -/
def isWordChar (c : Char) : Bool := !isDelimiter c

/-- The word in front. A day and a time of the day with a space between them are one word. -/
def word (cs : List Char) : List Char × List Char :=
  let first := cs.takeWhile isWordChar
  match cs.dropWhile isWordChar with
  | ' ' :: d :: rest =>
    if Scalar.isDay first && Scalar.isDigit d then
      (first ++ ' ' :: (d :: rest).takeWhile isWordChar, (d :: rest).dropWhile isWordChar)
    else (first, ' ' :: d :: rest)
  | rest => (first, rest)

mutual

/-- A value without white space in front, in which arrays and inline tables nest at most `room`
deep. -/
def value : Nat → (room : Nat) → List Char → Option (Value × List Char)
  | 0, _, _ => none
  | fuel + 1, room, cs =>
    match cs with
    | '"' :: '"' :: '"' :: rest =>
      (multiline '"' true fuel [] (afterOpening rest)).map fun (s, rest') => (.string s, rest')
    | '"' :: rest => (basic fuel [] rest).map fun (s, rest') => (.string s, rest')
    | '\'' :: '\'' :: '\'' :: rest =>
      (multiline '\'' false fuel [] (afterOpening rest)).map fun (s, rest') => (.string s, rest')
    | '\'' :: rest => (literal rest).map fun (s, rest') => (.string s, rest')
    | '[' :: rest =>
      match room with
      | 0 => none
      | room' + 1 => items fuel room' [] (skipLines fuel rest)
    | '\x7b' :: rest =>
      match room with
      | 0 => none
      | room' + 1 => fields fuel room' [] (skipLines fuel rest)
    | _ =>
      let (w, rest) := word cs
      (Scalar.ofWord? w).map fun v => (v, rest)

/-- The items of an array from one item or the closing bracket on, where `seen` holds those before,
last one first. -/
def items : Nat → (room : Nat) → (seen : List Value) → List Char → Option (Value × List Char)
  | 0, _, _, _ => none
  | fuel + 1, room, seen, cs =>
    match cs with
    | ']' :: rest => some (.array false seen.reverse, rest)
    | _ =>
      match value fuel room cs with
      | none => none
      | some (v, rest) =>
        match skipLines fuel rest with
        | ',' :: rest' => items fuel room (v :: seen) (skipLines fuel rest')
        | ']' :: rest' => some (.array false (v :: seen).reverse, rest')
        | _ => none

/-- The entries of an inline table from one entry or the closing brace on, where `seen` holds those
before. -/
def fields : Nat → (room : Nat) → (seen : Entries) → List Char → Option (Value × List Char)
  | 0, _, _, _ => none
  | fuel + 1, room, seen, cs =>
    match cs with
    | '\x7d' :: rest => some (.table .inline seen, rest)
    | _ =>
      match key? fuel cs with
      | none => none
      | some ((path, key), afterKey) =>
        match skipLines fuel afterKey with
        | '=' :: afterSign =>
          match value fuel room (skipLines fuel afterSign) with
          | none => none
          | some (v, rest) =>
            match define path key v .inline seen with
            | some (.table _ seen') =>
              match skipLines fuel rest with
              | ',' :: rest' => fields fuel room seen' (skipLines fuel rest')
              | '\x7d' :: rest' => some (.table .inline seen', rest')
              | _ => none
            | _ => none
        | _ => none

end

/-! ### Statements -/

/-- The statement in front, up to the end of its line. -/
def statement (fuel : Nat) (cs : List Char) : Option (Statement × List Char) :=
  match cs with
  | '[' :: '[' :: rest =>
    match key? fuel (skip rest) with
    | some ((path, key), ']' :: ']' :: rest') =>
      (lineEnd? rest').map fun rest'' => (.arrayHeader path key, rest'')
    | _ => none
  | '[' :: rest =>
    match key? fuel (skip rest) with
    | some ((path, key), ']' :: rest') =>
      (lineEnd? rest').map fun rest'' => (.header path key, rest'')
    | _ => none
  | _ =>
    match key? fuel cs with
    | some ((path, key), '=' :: rest) =>
      match value fuel limit (skip rest) with
      | some (v, rest') => (lineEnd? rest').map fun rest'' => (.entry path key v, rest'')
      | none => none
    | _ => none

/-- The document with the statements that are left. -/
def document : Nat → Document → List Char → Option Document
  | 0, _, _ => none
  | fuel + 1, d, cs =>
    match skip (skipLines fuel cs) with
    | [] => some d
    | rest =>
      match statement fuel rest with
      | none => none
      | some (s, rest') =>
        match d.add s with
        | some d' => document fuel d' rest'
        | none => none

/-- The characters after a byte order mark, if there is one. -/
def dropMark : List Char → List Char
  | '\ufeff' :: rest => rest
  | cs => cs

/-- The entries of the document that is the whole text. -/
def read (s : String) : Option Entries :=
  let cs := dropMark s.toList
  (document (cs.length + 2) .empty cs).map (·.root)

end Grounder.Toml.Reader
