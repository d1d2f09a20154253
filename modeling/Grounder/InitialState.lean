import Grounder.ObjectNumbering
import Grounder.Text.Decimal
import Grounder.VariableNumbering

/-!
# `Grounder.InitialState`: the compiled initial state

The initial state gives every declared symbol except equality its extension: the tuples for which
a predicate holds, or the values of a function. Tuples are kept in ascending order, compared name
by name, so the order of the elements that make up the state leaves no trace in it.
-/

set_option autoImplicit false

namespace Grounder

/-- A truth value, or a value of a function. -/
inductive FactValue where
  | bool (b : Bool)
  | int (n : Int64)
  | object (name : String)
  deriving DecidableEq, Repr

/-- The value as listings show it. -/
def FactValue.text : FactValue → String
  | .bool b => boolToken b
  | .int n => toString n.toInt
  | .object name => name

/-- The arguments of a fact. -/
abbrev Tuple := List String

/-- The extension of one symbol, its tuples ascending. -/
inductive Assignment where
  | relation (tuples : List Tuple)
  | function (values : List (Tuple × FactValue))
  deriving DecidableEq, Repr

namespace Assignment

/-- The extension of a symbol about which nothing is said. -/
def emptyFor (s : Symbol) : Assignment := if s.isPredicate then .relation [] else .function []

/-- Whether it is the extension of a predicate. -/
def isRelation : Assignment → Bool
  | .relation _ => true
  | .function _ => false

/-- The list with a tuple at its place, unless it is there. -/
def insertTuple? (tuple : Tuple) : List Tuple → Option (List Tuple)
  | [] => some [tuple]
  | t :: rest =>
    if tuple = t then none
    else if tuple < t then some (tuple :: t :: rest)
    else (insertTuple? tuple rest).map (t :: ·)

/-- The list with a tuple and its value at its place, unless the tuple is there. -/
def insertValue? (tuple : Tuple) (value : FactValue) :
    List (Tuple × FactValue) → Option (List (Tuple × FactValue))
  | [] => some [(tuple, value)]
  | entry :: rest =>
    if tuple = entry.1 then none
    else if tuple < entry.1 then some ((tuple, value) :: entry :: rest)
    else (insertValue? tuple value rest).map (entry :: ·)

/-- The extension with one more fact. A fact with a value belongs to a function, one without to a
predicate. -/
def insert? (a : Assignment) (tuple : Tuple) (value : Option FactValue) : Option Assignment :=
  match a, value with
  | .relation tuples, none => (insertTuple? tuple tuples).map .relation
  | .function values, some v => (insertValue? tuple v values).map .function
  | _, _ => none

/-- The facts in ascending order of their tuples. -/
def entries : Assignment → List (Tuple × FactValue)
  | .relation tuples => tuples.map fun t => (t, .bool true)
  | .function values => values

def size (a : Assignment) : Nat := a.entries.length

end Assignment

/-- The extension of every declared symbol except equality, in the order of the table. -/
structure InitialState where
  assignments : List (String × Assignment)
  deriving DecidableEq, Repr

namespace InitialState

/-- The state without any facts. -/
def emptyFor (table : SymbolTable) : InitialState :=
  ⟨(table.symbols.filter (·.name ≠ equality)).map fun s => (s.name, Assignment.emptyFor s)⟩

def get? (state : InitialState) (symbol : String) : Option Assignment :=
  state.assignments.lookup symbol

/-- The state with another extension for a symbol. -/
def set (state : InitialState) (symbol : String) (a : Assignment) : InitialState :=
  ⟨state.assignments.map fun entry => if entry.1 = symbol then (symbol, a) else entry⟩

/-- The state with one more fact. -/
def insert? (state : InitialState) (v : StateVariable) (value : Option FactValue) :
    Option InitialState := do
  let a ← state.get? v.symbol
  let a' ← a.insert? v.args value
  return state.set v.symbol a'

/-- The number of facts. -/
def atomCount (state : InitialState) : Nat :=
  state.assignments.foldr (fun entry count => entry.2.size + count) 0

/-- Every fact with its variable, symbol by symbol. -/
def facts (state : InitialState) : List (StateVariable × FactValue) :=
  state.assignments.flatMap fun (symbol, a) =>
    a.entries.map fun (tuple, value) => (⟨symbol, tuple⟩, value)

/-- The facts about variables that have a handle, in the order of the handles. -/
def explicitValues (state : InitialState) (numbering : VariableNumbering) :
    List (Nat × FactValue) :=
  (state.facts.filterMap fun (v, value) =>
    (numbering.handle? v).map fun handle => (handle, value)).mergeSort fun a b => a.1 ≤ b.1

/-! ### Adding elements -/

/-- Whether a name may stand where the type is asked for: any integer of 64 bits at a numeric
type, and otherwise an object of the type's listing. -/
def inDomain (table : SymbolTable) (type name : String) : Bool :=
  if isNumericType type then (Text.integer? name).isSome
  else ((table.domain? type).getD []).contains name

/-- The value that an assigned text stands for. White space around it is ignored. -/
def parseValue (table : SymbolTable) (codomain raw : String) : Except InitFault FactValue :=
  let value := Text.trim raw
  if isNumericType codomain then
    match Text.integer? value with
    | some n => .ok (.int n)
    | none => .error (.notNumeric raw codomain)
  else if inDomain table codomain value then .ok (.object value)
  else .error (.notInCodomain raw codomain)

/-- The value that an element gives its symbol, none for an atom. -/
def valueOf (table : SymbolTable) (s : Symbol) :
    InitialFact → Except InitFault (Option FactValue)
  | .atom _ _ negated =>
    if !s.isPredicate then .error .functionAsAtom
    else if negated then .error .negatedAtom
    else .ok none
  | .assign _ _ value =>
    match s.codomain with
    | none => .error .predicateWithValue
    | some codomain => (parseValue table codomain value).map some

/-- Whether the arguments lie in the domains of the symbol. Those of a symbol with handles do if
the variable has one. -/
def inDomains (table : SymbolTable) (numbering : VariableNumbering) (s : Symbol)
    (v : StateVariable) : Bool :=
  if (numbering.block? s.name).isSome then (numbering.handle? v).isSome
  else (s.params.zip v.args).all fun (type, arg) => inDomain table type arg

/-- What an element that stands on its own says: a variable and, for a function, its value. -/
def checkElement (table : SymbolTable) (numbering : VariableNumbering) (element : InitialFact) :
    Except GroundingError (StateVariable × Option FactValue) := do
  let s ← table.require element.symbol ("initial element '" ++ element.text ++ "'")
  if s.name = equality then throw (.invalidInit element.text .equality)
  if element.args.length ≠ s.arity then
    throw (.invalidInit element.text (.argumentCount s.arity element.args.length))
  let value ← (valueOf table s element).mapError (.invalidInit element.text)
  let v : StateVariable := ⟨s.name, element.args⟩
  if inDomains table numbering s v then return (v, value) else throw (.outOfDomain v)

/-- The state with one more element. -/
def add (table : SymbolTable) (numbering : VariableNumbering) (state : InitialState)
    (element : InitialFact) : Except GroundingError InitialState := do
  let (v, value) ← checkElement table numbering element
  match state.insert? v value with
  | some state' => return state'
  | none => throw (.duplicateInitialization v element.text)

/-- The state that a list of elements describes. -/
def ofElements (table : SymbolTable) (numbering : VariableNumbering) (elements : List InitialFact) :
    Except GroundingError InitialState :=
  elements.foldlM (add table numbering) (emptyFor table)

end InitialState

end Grounder
