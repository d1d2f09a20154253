import Grounder.GroundingError
import Grounder.Task.Basic

/-!
# `Grounder.SymbolTable`: the declared symbols

The table holds the predicates, then the functions, then the equality of objects unless the task
declares it. A symbol's id is its position. Names are unique over both kinds, and every type that
a declaration mentions is numeric or has a listing of objects.
-/

set_option autoImplicit false

namespace Grounder

/-- The name of the equality predicate. -/
def equality : String := "="

/-- The type that every object belongs to. -/
def objectType : String := "object"

/-- Whether a type holds integers. Such types need no listing. -/
def isNumericType (type : String) : Bool := type == "int" || type == "number"

/-- What a declaration says of a symbol. Predicates are the symbols without a codomain. -/
structure Signature where
  name : String
  params : List String
  codomain : Option String
  deriving DecidableEq, Repr

namespace Signature

def arity (s : Signature) : Nat := s.params.length

def isPredicate (s : Signature) : Bool := s.codomain.isNone

/-- The types of the parameters, then the codomain. -/
def types (s : Signature) : List String := s.params ++ s.codomain.toList

/-- The symbol with its types, as listings show it. -/
def text (s : Signature) : String :=
  Term.applied s.name s.params ++ (match s.codomain with | some type => ":" ++ type | none => "")

/-- The word for the kind of symbol. -/
def kindName (s : Signature) : String := if s.isPredicate then "predicate" else "function"

end Signature

/-- A symbol of the table. -/
structure Symbol extends Signature where
  id : Nat
  deriving DecidableEq, Repr

/-- Declared symbols in order, and the listings of the types. -/
structure SymbolTable where
  symbols : List Symbol
  typeDomains : List TypeDomain
  objects : List String
  deriving Repr

namespace SymbolTable

/-- The symbols after one more declaration. -/
def declare (symbols : List Symbol) (s : Signature) : Except GroundingError (List Symbol) :=
  if symbols.any (·.name = s.name) then .error (.duplicateSymbol s.name)
  else .ok (symbols ++ [{ s with id := symbols.length }])

/-- The declarations of a task, predicates first. -/
def declarations (t : Task) : List Signature :=
  (t.predicates.map fun p => ⟨p.name, p.params, none⟩) ++
    t.functions.map fun f => ⟨f.name, f.params, some f.codomain⟩

/-- The declaration of equality, if it is still missing. -/
def impliedDeclarations (declared : List Signature) : List Signature :=
  if declared.any (·.name = equality) then []
  else [⟨equality, [objectType, objectType], none⟩]

/-- The listing of a type. The last listing of a name counts, and `objectType` lists all objects
unless it has a listing of its own. -/
def domain? (table : SymbolTable) (type : String) : Option (List String) :=
  match table.typeDomains.reverse.find? (·.name = type) with
  | some d => some d.objects
  | none => if type = objectType then some table.objects else none

/-- Whether a declaration may mention the type. -/
def knowsType (table : SymbolTable) (type : String) : Bool :=
  (table.domain? type).isSome || isNumericType type

/-- The first unknown type in the table, in order of symbols and of types within a symbol. -/
def unknownType? (table : SymbolTable) : Option GroundingError :=
  table.symbols.findSome? fun s =>
    (s.types.find? fun type => !table.knowsType type).map fun type => .unknownType type s.name

/-- The table of a task. -/
def ofTask (t : Task) : Except GroundingError SymbolTable := do
  let declared := declarations t
  let symbols ← (declared ++ impliedDeclarations declared).foldlM declare []
  let table : SymbolTable := ⟨symbols, t.typeDomains, t.objects⟩
  match table.unknownType? with
  | some e => throw e
  | none => return table

/-- The symbol of that name. -/
def get? (table : SymbolTable) (name : String) : Option Symbol :=
  table.symbols.find? (·.name = name)

/-- The symbol of that name, which `context` refers to. -/
def require (table : SymbolTable) (name context : String) : Except GroundingError Symbol :=
  match table.get? name with
  | some s => .ok s
  | none => .error (.unknownSymbol name context)

def contains (table : SymbolTable) (name : String) : Bool := (table.get? name).isSome

/-- The names in order. -/
def names (table : SymbolTable) : List String := table.symbols.map (·.name)

end SymbolTable

end Grounder
