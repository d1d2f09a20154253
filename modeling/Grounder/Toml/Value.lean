/-!
# `Grounder.Toml.Value`: TOML values and tables

A table remembers how it came about, because that decides what later lines may add to it. The
statements of a document are put together here, one after another: `define` and its companions
refuse a statement that defines something twice.

A number that cannot be read does not make its document wrong: it is a value like any other until
somebody asks for it. `Value.isReadable` tells whether there is such a number in a value.
-/

set_option autoImplicit false

namespace Grounder.Toml

/-- How a table came about. -/
inductive TableKind where
  /-- Written between braces. Nothing can be added to it. -/
  | inline
  /-- Only passed through by a header. Its own header may still come. -/
  | implicit
  /-- Passed through by a dotted key. -/
  | dotted
  /-- Opened by a header of its own. The whole document counts as one. -/
  | header
  deriving DecidableEq, Repr

/-- A TOML value. Floats and dates are kept as written. -/
inductive Value where
  | string (s : String)
  | integer (n : Int)
  | float (text : String)
  | bool (b : Bool)
  | date (text : String)
  /-- A number that is too large, or that has no value although it is well formed. -/
  | unreadable (text : String)
  /-- An array; `ofTables` if headers in double brackets make it up. -/
  | array (ofTables : Bool) (items : List Value)
  | table (kind : TableKind) (entries : List (String × Value))
  deriving Repr

/-- The entries of a table, in order. -/
abbrev Entries := List (String × Value)

mutual

/-- Whether every number in a value can be read. -/
def Value.isReadable : Value → Bool
  | .string _ | .integer _ | .float _ | .bool _ | .date _ => true
  | .unreadable _ => false
  | .array _ items => areReadable items
  | .table _ entries => entriesAreReadable entries

/-- Whether every number in some values can be read. -/
def areReadable : List Value → Bool
  | [] => true
  | v :: rest => v.isReadable && areReadable rest

/-- Whether every number in some entries can be read. -/
def entriesAreReadable : List (String × Value) → Bool
  | [] => true
  | (_, v) :: rest => v.isReadable && entriesAreReadable rest

end

/-- The entries with another value under a key that is there. -/
def replace (entries : Entries) (key : String) (v : Value) : Entries :=
  entries.map fun e => if e.1 = key then (key, v) else e

/-- The table with a change to what a path leads to. Missing tables on the way are added, those of
a dotted key as `dotted`. A path leads through the last table of an array of tables. It does not
lead into an inline table, nor does a dotted key lead into a table that has a header. -/
def change (isDotted : Bool) (f : TableKind → Entries → Option Value) :
    List String → TableKind → Entries → Option Value
  | [], kind, entries => f kind entries
  | key :: path, kind, entries =>
    match entries.lookup key with
    | none => do
      let v ← change isDotted f path (if isDotted then .dotted else .implicit) []
      return .table kind (entries ++ [(key, v)])
    | some (.table k inner) =>
      if k = .inline ∨ (isDotted ∧ k = .header) then none
      else do
        let v ← change isDotted f path k inner
        return .table kind (replace entries key v)
    | some (.array true items) =>
      match items.getLast? with
      | some (.table k inner) => do
        let v ← change isDotted f path k inner
        return .table kind (replace entries key (.array true (items.dropLast ++ [v])))
      | _ => none
    | some _ => none

/-- The table with one more entry, whose key leads through `path`. Where there is such a path, it
ends in a table that dotted keys made. -/
def define (path : List String) (key : String) (v : Value) (kind : TableKind) (entries : Entries) :
    Option Value :=
  change true (fun k inner =>
    if (inner.lookup key).isSome ∨ (path ≠ [] ∧ k ≠ .dotted) then none
    else some (.table k (inner ++ [(key, v)]))) path kind entries

/-- The table with a table opened under a key, which may so far only have been passed through. -/
def openTable (key : String) (kind : TableKind) (entries : Entries) : Option Value :=
  match entries.lookup key with
  | none => some (.table kind (entries ++ [(key, .table .header [])]))
  | some (.table .implicit inner) =>
    some (.table kind (replace entries key (.table .header inner)))
  | some _ => none

/-- The table with one more table in the array under a key. -/
def appendTable (key : String) (kind : TableKind) (entries : Entries) : Option Value :=
  match entries.lookup key with
  | none => some (.table kind (entries ++ [(key, .array true [.table .header []])]))
  | some (.array true items) =>
    some (.table kind (replace entries key (.array true (items ++ [.table .header []]))))
  | some _ => none

/-- A statement of a document. A path is the keys before the last one. -/
inductive Statement where
  | header (path : List String) (key : String)
  | arrayHeader (path : List String) (key : String)
  | entry (path : List String) (key : String) (v : Value)
  deriving Repr

/-- A document so far, and the path of the table that entries go to. -/
structure Document where
  root : Entries
  current : List String

namespace Document

def empty : Document := ⟨[], []⟩

/-- The document with a change to what a path leads to. -/
def changeAt (d : Document) (path : List String) (f : TableKind → Entries → Option Value)
    (current : List String) : Option Document :=
  match change false f path .header d.root with
  | some (.table _ root) => some ⟨root, current⟩
  | _ => none

/-- The document after one more statement. -/
def add (d : Document) : Statement → Option Document
  | .header path key => d.changeAt path (openTable key) (path ++ [key])
  | .arrayHeader path key => d.changeAt path (appendTable key) (path ++ [key])
  | .entry path key v => d.changeAt d.current (define path key v) d.current

end Document

end Grounder.Toml
