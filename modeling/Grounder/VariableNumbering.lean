import Grounder.Classification
import Grounder.Odometer
import Grounder.Text.LetterCase
import Grounder.Text.Lines

/-!
# `Grounder.VariableNumbering`: handles of state variables

Every state variable of a fluent symbol gets a handle: a number from zero on, in the order of
registration. The symbols come in a chosen order, and the variables of one symbol in the order of
the odometer over its parameter types. The block of a symbol says where its handles begin and how
to compute one from the positions of its arguments.
-/

set_option autoImplicit false

namespace Grounder

/-- In which order symbols get their handles. -/
inductive SymbolOrder where
  /-- As declared. -/
  | declaration
  /-- By ascending number of parameters, and as declared where it is the same. -/
  | arity
  deriving DecidableEq, Repr

namespace SymbolOrder

def text : SymbolOrder → String
  | .declaration => "declaration"
  | .arity => "arity"

/-- The order of that name. -/
def ofName? (name : String) : Option SymbolOrder :=
  [declaration, arity].find? (·.text = name)

/-- The order of that name in any letter case, or the message that there is none. -/
def parse (name : String) : Except String SymbolOrder :=
  let small := Text.lowercase name
  match ofName? small with
  | some order => .ok order
  | none => .error ("unknown symbol order '" ++ small ++ "' (expected declaration|arity)")

end SymbolOrder

/-- The handles of one symbol: `size` of them from `base` on. The handle of a variable is `base`
plus the sum of the positions of its arguments, each times the stride of its place. Strides are
words. -/
structure SymbolBlock where
  symbol : String
  base : Nat
  strides : List UInt64
  size : Nat
  deriving DecidableEq, Repr

/-- One step from a place to the one in front of it: the stride of the latter is that of the former
times the size of its listing. The stride found last stands apart from those found before it. -/
def pushStride (found : UInt64 × List UInt64) (listing : List String) :
    Except GroundingError (UInt64 × List UInt64) :=
  let (stride, behind) := found
  let product := stride.toNat * listing.length
  if product < UInt64.size then .ok (.ofNat product, stride :: behind)
  else .error .strideOverflow

/-- The strides of the places, computed from the last place to the first. -/
def strides : List (List String) → Except GroundingError (List UInt64)
  | [] => .ok []
  | _ :: listings => do
    let (stride, behind) ← listings.reverse.foldlM pushStride (1, [])
    return stride :: behind

/-- Distinct variables; the handle of a variable is its position. -/
structure VariableNumbering where
  vars : List StateVariable
  nodup : vars.Nodup
  blocks : List SymbolBlock
  deriving Repr

namespace VariableNumbering

def empty : VariableNumbering := ⟨[], .nil, []⟩

/-- The numbering with one more variable, whose handle is the next one. -/
def register (numbering : VariableNumbering) (v : StateVariable) :
    Except GroundingError VariableNumbering :=
  if h : v ∈ numbering.vars then .error (.duplicateRegistration v)
  else
    .ok
      { vars := numbering.vars ++ [v]
        nodup := by
          refine List.nodup_append.2 ⟨numbering.nodup, by simp, ?_⟩
          intro a ha b hb
          rw [List.mem_singleton.1 hb]
          exact fun hab => h (hab ▸ ha)
        blocks := numbering.blocks }

/-- The numbering with variables registered one after another. -/
def registerAll (numbering : VariableNumbering) (vs : List StateVariable) :
    Except GroundingError VariableNumbering :=
  vs.foldlM register numbering

def handle? (numbering : VariableNumbering) (v : StateVariable) : Option Nat :=
  numbering.vars.idxOf? v

def variableAt? (numbering : VariableNumbering) (handle : Nat) : Option StateVariable :=
  numbering.vars[handle]?

def size (numbering : VariableNumbering) : Nat := numbering.vars.length

/-- The block of a symbol that has handles. -/
def block? (numbering : VariableNumbering) (symbol : String) : Option SymbolBlock :=
  numbering.blocks.find? (·.symbol = symbol)

/-! ### Listings -/

/-- One variable per line; the line's number is the handle. -/
def listing (numbering : VariableNumbering) : String :=
  Text.unlines (numbering.vars.map StateVariable.text)

/-- What is wrong with a line of a listing. -/
inductive LineFault where
  | parse (e : StateVariable.ParseError)
  | register (e : GroundingError)
  deriving DecidableEq, Repr

def LineFault.message : LineFault → String
  | .parse e => e.message
  | .register e => e.message

/-- A line, counted from one, that is no variable or repeats one. -/
structure ListingError where
  line : Nat
  fault : LineFault
  deriving DecidableEq, Repr

def ListingError.message (e : ListingError) : String :=
  "line " ++ toString e.line ++ ": " ++ e.fault.message

/-- The numbering with the variables that lines list, where the first line has the number `number`.
Blank lines count and list nothing. -/
def readLines (numbering : VariableNumbering) (number : Nat) :
    List String → Except ListingError VariableNumbering
  | [] => .ok numbering
  | line :: rest =>
    if Text.isBlankText line then readLines numbering (number + 1) rest
    else
      match StateVariable.parse line with
      | .error e => .error ⟨number, .parse e⟩
      | .ok v =>
        match numbering.register v with
        | .error e => .error ⟨number, .register e⟩
        | .ok numbering' => readLines numbering' (number + 1) rest

/-- The numbering whose listing a text is. It has no blocks. -/
def ofListing (text : String) : Except ListingError VariableNumbering :=
  empty.readLines 1 (Text.lines text)

/-! ### The numbering of a task -/

/-- The fluent symbols in the order in which they get their handles. -/
def orderedFluents (table : SymbolTable) (c : Classification) (order : SymbolOrder) :
    List Symbol :=
  let fluents := table.symbols.filter fun s => c.isFluent s.name
  match order with
  | .declaration => fluents
  | .arity => fluents.mergeSort fun a b => a.arity ≤ b.arity

/-- The listings of the parameter types of a symbol. -/
def argumentDomains (table : SymbolTable) (s : Symbol) :
    Except GroundingError (List (List String)) :=
  s.params.mapM fun type =>
    match table.domain? type with
    | some listing => .ok listing
    | none => .error (.unboundedDomain type s.name)

/-- The numbering with all variables of one more symbol, and its block. -/
def addSymbol (table : SymbolTable) (numbering : VariableNumbering) (s : Symbol) :
    Except GroundingError VariableNumbering := do
  let domains ← argumentDomains table s
  let tuples := Odometer.tuples domains
  let filled ← numbering.registerAll (tuples.map fun tuple => ⟨s.name, tuple⟩)
  let strides ← strides domains
  return { filled with
    blocks := numbering.blocks ++ [⟨s.name, numbering.size, strides, tuples.length⟩] }

/-- The numbering of all variables of the fluent symbols. -/
def ofSymbols (table : SymbolTable) (c : Classification) (order : SymbolOrder) :
    Except GroundingError VariableNumbering :=
  (orderedFluents table c order).foldlM (addSymbol table) empty

end VariableNumbering

end Grounder
