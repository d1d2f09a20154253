import Grounder.InitialState

/-!
# `Grounder.GroundModel`: grounded tasks

Grounding a task goes through stages, and each of them must succeed before the next one starts:
the symbol table, the check that listed objects are declared, the classification, the variable
numbering, the initial state. The goal plays no part.
-/

set_option autoImplicit false

namespace Grounder

/-- Everything that generated code refers to, resolved. -/
structure GroundModel where
  domain : String
  instanceName : String
  symbols : SymbolTable
  objects : ObjectNumbering
  classification : Classification
  numbering : VariableNumbering
  init : InitialState
  deriving Repr

namespace GroundModel

/-- The first object in the listing of a type that has no id. -/
def undeclaredObject? (t : Task) (objects : ObjectNumbering) : Option GroundingError :=
  t.typeDomains.findSome? fun d =>
    (d.objects.find? fun object => (objects.id? object).isNone).map fun object =>
      .undeclaredObject object d.name

/-- The model of a task, with handles given in some order of the symbols. -/
def build (t : Task) (order : SymbolOrder) : Except GroundingError GroundModel := do
  let symbols ← SymbolTable.ofTask t
  let objects := ObjectNumbering.ofObjects t.objects
  match undeclaredObject? t objects with
  | some e => throw e
  | none =>
    let classification ← Classification.ofActions t.actions symbols
    let numbering ← VariableNumbering.ofSymbols symbols classification order
    let init ← InitialState.ofElements symbols numbering t.init
    return { domain := t.domain, instanceName := t.instanceName, symbols, objects, classification,
             numbering, init }

end GroundModel

end Grounder
