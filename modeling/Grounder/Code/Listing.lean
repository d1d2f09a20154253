import Grounder.Constraint.Plan
import Grounder.CompileError
import Grounder.Output.Artifact

/-!
# `Grounder.Code.Listing`: data files that generated code loads

Each listing has a line per entry. Objects and variables are listed in the order of their ids and
handles, so the number of a line is the id or the handle.
-/

set_option autoImplicit false

namespace Grounder

/-- The word for something that is not there. -/
def absentMark : String := "-"

namespace GroundModel

/-- Where the handles of a symbol begin, and its strides. -/
def blockText (m : GroundModel) (symbol : String) : String :=
  match m.numbering.block? symbol with
  | none => absentMark ++ " " ++ absentMark
  | some l =>
    let strides :=
      if l.strides.isEmpty then absentMark
      else ",".intercalate (l.strides.map fun stride => toString stride.toNat)
    toString l.base ++ " " ++ strides

/-- The line of a symbol: id, name, kind, class, signature and block. -/
def symbolLine (m : GroundModel) (s : Symbol) : String :=
  let tag := ((m.classification.tag? s.name).map SymbolClass.text).getD absentMark
  " ".intercalate
    [toString s.id, s.name, s.kindName, tag, s.toSignature.text, m.blockText s.name]

def symbolsData (m : GroundModel) : Artifact :=
  ⟨"symbols.data", Text.unlines (m.symbols.symbols.map m.symbolLine)⟩

def variablesData (m : GroundModel) : Artifact := ⟨"variables.data", m.numbering.listing⟩

def objectsData (m : GroundModel) : Artifact := ⟨"objects.data", m.objects.listing⟩

/-! ### Facts -/

/-- The id of an object. A name without an id stands for itself if it is an integer. -/
def nameCode (m : GroundModel) (unit name : String) : Except CompileError String :=
  match m.objects.id? name with
  | some id => .ok (toString id)
  | none =>
    if (Text.integer? name).isSome then .ok name else .error (.invalidTerm unit (.noObjectId name))

/-- A value, with the id in place of an object. -/
def valueCode (m : GroundModel) (unit : String) : FactValue → Except CompileError String
  | .object name => m.nameCode unit name
  | value => .ok value.text

/-- The line of a variable that the initial state gives a value. -/
def initLine (m : GroundModel) (unit : String) (entry : Nat × FactValue) :
    Except CompileError String := do
  let code ← m.valueCode unit entry.2
  return toString entry.1 ++ " " ++ code

/-- The handle and the value of every variable that the initial state gives one. -/
def initData (m : GroundModel) : Except CompileError Artifact := do
  let unit := "init.data"
  let lines ← (m.init.explicitValues m.numbering).mapM (m.initLine unit)
  return ⟨unit, Text.unlines lines⟩

/-- A tuple of ids. -/
def tupleCode (m : GroundModel) (unit : String) (tuple : Tuple) : Except CompileError String := do
  let ids ← tuple.mapM (m.nameCode unit)
  return "(" ++ " ".intercalate ids ++ ")"

/-- The line of a fact: its tuple, and the value that a function has there. -/
def factLine (m : GroundModel) (unit : String) (isPredicate : Bool) (fact : Tuple × FactValue) :
    Except CompileError String := do
  let tuple ← m.tupleCode unit fact.1
  if isPredicate then return tuple
  else
    let value ← m.valueCode unit fact.2
    return tuple ++ " " ++ value

/-- The file of a static symbol. -/
def staticUnitName (symbol : String) : String := "static/" ++ symbol ++ ".data"

/-- The facts about a static symbol. -/
def staticData (m : GroundModel) (symbol : String) (a : Assignment) :
    Except CompileError Artifact := do
  let unit := staticUnitName symbol
  let lines ← a.entries.mapM (m.factLine unit a.isRelation)
  return ⟨unit, Text.unlines lines⟩

/-- The static symbols and their extensions, in the order of the table. -/
def staticAssignments (m : GroundModel) : List (String × Assignment) :=
  m.classification.statics.filterMap fun symbol => (m.init.get? symbol).map fun a => (symbol, a)

/-- One file for each static symbol. -/
def staticDataUnits (m : GroundModel) : Except CompileError (List Artifact) :=
  m.staticAssignments.mapM fun (symbol, a) => m.staticData symbol a

end GroundModel

namespace ConstraintPlan

/-- The line of a static constraint: number, name, parameters and arguments. -/
def staticLine (c : NumberedUse) : String :=
  let d := c.constraint
  let parameters := if d.parameters.isEmpty then absentMark else ",".intercalate d.parameters
  " ".intercalate [toString c.id, d.name, parameters, " ".intercalate d.vars]

def staticConstraintsData (plan : ConstraintPlan) : Artifact :=
  ⟨"static_constraints.data", Text.unlines (plan.statics.map staticLine)⟩

end ConstraintPlan

end Grounder
