import Grounder.SymbolTable

/-!
# `Grounder.Classification`: static and fluent symbols

A symbol is fluent when some effect targets it, and static otherwise. Equality is static whatever
the effects say.
-/

set_option autoImplicit false

namespace Grounder

/-- Whether actions can change a symbol. -/
inductive SymbolClass where
  | static
  | fluent
  deriving DecidableEq, Repr

def SymbolClass.text : SymbolClass → String
  | .static => "static"
  | .fluent => "fluent"

/-- The class of every declared symbol, in the order of the table. -/
structure Classification where
  tags : List (String × SymbolClass)
  deriving DecidableEq, Repr

namespace Classification

/-- The targets of the effects of actions, with the action that has them, in order. -/
def targets (actions : List Action) : List (String × String) :=
  actions.flatMap fun a => a.effects.map fun e => (a.name, e.symbol)

/-- The first effect on an undeclared symbol. -/
def unknownTarget? (actions : List Action) (table : SymbolTable) : Option GroundingError :=
  (targets actions).findSome? fun (action, symbol) =>
    if table.contains symbol then none
    else some (.unknownSymbol symbol ("effect of action '" ++ action ++ "'"))

/-- The class that effects on the symbols `changed` give a symbol. -/
def classOf (changed : List String) (name : String) : SymbolClass :=
  if name ≠ equality ∧ changed.contains name then .fluent else .static

/-- The classification that the effects of the actions make. -/
def ofActions (actions : List Action) (table : SymbolTable) :
    Except GroundingError Classification :=
  match unknownTarget? actions table with
  | some e => .error e
  | none =>
    let changed := (targets actions).map Prod.snd
    .ok ⟨table.names.map fun name => (name, classOf changed name)⟩

/-- The class of a declared symbol. -/
def tag? (c : Classification) (name : String) : Option SymbolClass := c.tags.lookup name

def isFluent (c : Classification) (name : String) : Bool := c.tag? name = some .fluent

def isStatic (c : Classification) (name : String) : Bool := c.tag? name = some .static

/-- The symbols of one class, in the order of the table. -/
def ofClass (c : Classification) (k : SymbolClass) : List String :=
  (c.tags.filter fun tag => tag.2 = k).map Prod.fst

def fluents (c : Classification) : List String := c.ofClass .fluent

def statics (c : Classification) : List String := c.ofClass .static

end Classification

end Grounder
