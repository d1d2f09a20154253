import Grounder.Json.Decoder
import Grounder.Json.Reader
import Grounder.Task.Basic

/-!
# `Grounder.Task.Decode`: tasks from JSON

The records of a task are read by `Json.Record`, with the defaults that each field has. Terms tell
by their own form what they are; formulas and initial elements name their kind.

Terms and formulas nest. Their decoders are bounded by `depth`, which the limit on nesting makes
superfluous: a term or formula inside another one takes up at least one level.
-/

set_option autoImplicit false

namespace Grounder

open Json (Decoder Record)

/-- A term with at most `depth` terms inside each other. -/
def Term.decodeWithin : (depth : Nat) → Decoder Term
  | 0 => fun _ _ => none
  | depth + 1 => fun nesting v =>
    match v with
    | .string name => some (.ofName name)
    | .number (.integer n) => (Text.word? n).map .int
    | .object members =>
      if v.isReadable nesting then do
        let r ← Record.of? ["symbol", "args"] nesting (.object members)
        let symbol ← r.required "symbol" .string
        let args ← r.required "args" (.list (decodeWithin depth))
        return .app symbol args
      else none
    | _ => none

/-- A term: a name, an integer, or an object with the applied symbol and the arguments. -/
def Term.decode : Decoder Term := decodeWithin Json.maxNesting

/-- The sign of a comparison, alone or as the name of the only member of an object that holds
nothing. -/
def Comparison.decode : Decoder Comparison
  | _, .string s => ofSign? s
  | _, .object [(s, .null)] => ofSign? s
  | _, .object [(s, .object [])] => ofSign? s
  | _, _ => none

def ConstraintUse.decode : Decoder ConstraintUse := fun nesting v => do
  let r ← Record.of? ["name", "parameters", "args"] nesting v
  let name ← r.required "name" .string
  let parameters ← r.optional "parameters" (.list .string) []
  let args ← r.optional "args" (.list Term.decode) []
  return ⟨name, parameters, args⟩

namespace Formula

/-- The kinds of formulas, in the order of their declaration. -/
def kinds : List String := ["true", "atom", "relation", "and", "constraint"]

/-- A formula with at most `depth` formulas inside each other. Only a formula inside another one
may give its kind by position. -/
def decodeWithin (inside : Bool) : (depth : Nat) → Decoder Formula
  | 0 => fun _ _ => none
  | depth + 1 => fun nesting v => do
    let (kind, rest) ← Json.tagged? inside kinds nesting v
    match kind with
    | "true" =>
      match rest with
      | .array (_ :: _) => none
      | _ => return .true
    | "atom" => do
      let r ← Record.of? ["symbol", "args", "negated"] nesting rest
      let symbol ← r.required "symbol" .string
      let args ← r.optional "args" (.list Term.decode) []
      let negated ← r.optional "negated" .bool false
      return .atom symbol args negated
    | "relation" => do
      let r ← Record.of? ["op", "lhs", "rhs"] nesting rest
      let op ← r.required "op" Comparison.decode
      let lhs ← r.required "lhs" Term.decode
      let rhs ← r.required "rhs" Term.decode
      return .relation op lhs rhs
    | "and" => do
      let r ← Record.of? ["conjuncts"] nesting rest
      let parts ← r.required "conjuncts" (.list (decodeWithin Bool.true depth))
      return .and parts
    | "constraint" => do
      let use ← ConstraintUse.decode nesting rest
      return .constraint use
    | _ => none

/-- A formula that is not part of another one. -/
def decode : Decoder Formula := decodeWithin false Json.maxNesting

end Formula

def Effect.decode : Decoder Effect := fun nesting v => do
  let r ← Record.of? ["symbol", "args", "value", "negated", "condition"] nesting v
  let symbol ← r.required "symbol" .string
  let args ← r.optional "args" (.list Term.decode) []
  let value ← r.optional "value" (.nullable Term.decode) none
  let negated ← r.optional "negated" .bool false
  let condition ← r.optional "condition" (.nullable Formula.decode) none
  return ⟨symbol, args, value, negated, condition⟩

/-- An assigned value: a text, or an integer that stands for its digits. -/
def InitialFact.decodeValue : Decoder String
  | _, .string s => some s
  | _, .number (.integer n) => (Text.word? n).map fun w => toString w.toInt
  | _, _ => none

def InitialFact.decode : Decoder InitialFact := fun nesting v => do
  let (kind, rest) ← Json.tagged? false ["atom", "assign"] nesting v
  match kind with
  | "atom" => do
    let r ← Record.of? ["symbol", "args", "negated"] nesting rest
    let symbol ← r.required "symbol" .string
    let args ← r.optional "args" (.list .string) []
    let negated ← r.optional "negated" .bool false
    return .atom symbol args negated
  | _ => do
    let r ← Record.of? ["symbol", "args", "value"] nesting rest
    let symbol ← r.required "symbol" .string
    let args ← r.optional "args" (.list .string) []
    let value ← r.required "value" decodeValue
    return .assign symbol args value

def TypeDomain.decode : Decoder TypeDomain := fun nesting v => do
  let r ← Record.of? ["name", "objects"] nesting v
  let name ← r.required "name" .string
  let objects ← r.required "objects" (.list .string)
  return ⟨name, objects⟩

def PredicateSignature.decode : Decoder PredicateSignature := fun nesting v => do
  let r ← Record.of? ["name", "params"] nesting v
  let name ← r.required "name" .string
  let params ← r.optional "params" (.list .string) []
  return ⟨name, params⟩

def FunctionSignature.decode : Decoder FunctionSignature := fun nesting v => do
  let r ← Record.of? ["name", "params", "codomain"] nesting v
  let name ← r.required "name" .string
  let params ← r.optional "params" (.list .string) []
  let codomain ← r.required "codomain" .string
  return ⟨name, params, codomain⟩

def Parameter.decode : Decoder Parameter := fun nesting v => do
  let r ← Record.of? ["name", "type"] nesting v
  let name ← r.required "name" .string
  let type ← r.required "type" .string
  return ⟨name, type⟩

def Action.decode : Decoder Action := fun nesting v => do
  let r ← Record.of? ["name", "params", "precondition", "effects"] nesting v
  let name ← r.required "name" .string
  let params ← r.optional "params" (.list Parameter.decode) []
  let precondition ← r.optional "precondition" Formula.decode .true
  let effects ← r.optional "effects" (.list Effect.decode) []
  return ⟨name, params, precondition, effects⟩

namespace Task

/-- The fields of a task, in the order of their declaration. -/
def fieldNames : List String :=
  ["domain", "instance", "type_domains", "objects", "predicates", "functions", "actions", "init",
    "constraints", "goal"]

def decode : Decoder Task := fun nesting v => do
  let r ← Record.of? fieldNames nesting v
  let domain ← r.required "domain" .string
  let instanceName ← r.required "instance" .string
  let typeDomains ← r.optional "type_domains" (.list TypeDomain.decode) []
  let objects ← r.optional "objects" (.list .string) []
  let predicates ← r.optional "predicates" (.list PredicateSignature.decode) []
  let functions ← r.optional "functions" (.list FunctionSignature.decode) []
  let actions ← r.optional "actions" (.list Action.decode) []
  let init ← r.optional "init" (.list InitialFact.decode) []
  let constraints ← r.optional "constraints" (.list ConstraintUse.decode) []
  let goal ← r.optional "goal" (.nullable .any) none
  return { domain, instanceName, typeDomains, objects, predicates, functions, actions, init,
           constraints, goal }

/-- The task that a JSON value writes. -/
def ofJson? (v : Json.Value) : Option Task := decode Json.maxNesting v

/-- The task that a JSON text writes. -/
def parse? (text : String) : Option Task := (Json.Reader.read text).bind ofJson?

end Task

end Grounder
