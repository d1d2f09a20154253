import Grounder.Json.Printer
import Grounder.Task.Basic

/-!
# `Grounder.Task.Encode`: tasks as JSON

Every field is written, whether it has its default or not. Left out are an absent goal and the
absent value or condition of an effect.
-/

set_option autoImplicit false

namespace Grounder

open Json (Value)

/-- A list as an array. -/
def Json.Value.ofList {α : Type} (f : α → Value) (xs : List α) : Value := .array (xs.map f)

/-- Texts as an array. -/
def Json.Value.ofStrings (xs : List String) : Value := .ofList .string xs

/-- An optional member of an object: absent without a value. -/
def Json.Value.member? (name : String) : Option Value → List (String × Value)
  | some v => [(name, v)]
  | none => []

mutual

def Term.toJson : Term → Value
  | .param name => .string name
  | .object name => .string name
  | .int value => .number (.integer value.toInt)
  | .app symbol args => .object [("symbol", .string symbol), ("args", .array (Term.allToJson args))]

def Term.allToJson : List Term → List Value
  | [] => []
  | t :: rest => t.toJson :: Term.allToJson rest

end

/-- The members of a constraint use. -/
def ConstraintUse.members (use : ConstraintUse) : List (String × Value) :=
  [("name", .string use.name), ("parameters", .ofStrings use.parameters),
    ("args", .array (Term.allToJson use.args))]

def ConstraintUse.toJson (use : ConstraintUse) : Value := .object use.members

mutual

def Formula.toJson : Formula → Value
  | .true => .object [("kind", .string "true")]
  | .atom symbol args negated =>
    .object [("kind", .string "atom"), ("symbol", .string symbol),
      ("args", .array (Term.allToJson args)), ("negated", .bool negated)]
  | .relation op lhs rhs =>
    .object [("kind", .string "relation"), ("op", .string op.sign), ("lhs", lhs.toJson),
      ("rhs", rhs.toJson)]
  | .and parts =>
    .object [("kind", .string "and"), ("conjuncts", .array (Formula.allToJson parts))]
  | .constraint use => .object (("kind", .string "constraint") :: use.members)

def Formula.allToJson : List Formula → List Value
  | [] => []
  | f :: rest => f.toJson :: Formula.allToJson rest

end

def Effect.toJson (e : Effect) : Value :=
  .object ([("symbol", .string e.symbol), ("args", .array (Term.allToJson e.args))] ++
    Value.member? "value" (e.value.map Term.toJson) ++ [("negated", .bool e.negated)] ++
    Value.member? "condition" (e.condition.map Formula.toJson))

def InitialFact.toJson : InitialFact → Value
  | .atom symbol args negated =>
    .object [("kind", .string "atom"), ("symbol", .string symbol), ("args", .ofStrings args),
      ("negated", .bool negated)]
  | .assign symbol args value =>
    .object [("kind", .string "assign"), ("symbol", .string symbol), ("args", .ofStrings args),
      ("value", .string value)]

def TypeDomain.toJson (d : TypeDomain) : Value :=
  .object [("name", .string d.name), ("objects", .ofStrings d.objects)]

def PredicateSignature.toJson (p : PredicateSignature) : Value :=
  .object [("name", .string p.name), ("params", .ofStrings p.params)]

def FunctionSignature.toJson (f : FunctionSignature) : Value :=
  .object [("name", .string f.name), ("params", .ofStrings f.params),
    ("codomain", .string f.codomain)]

def Parameter.toJson (p : Parameter) : Value :=
  .object [("name", .string p.name), ("type", .string p.type)]

def Action.toJson (a : Action) : Value :=
  .object [("name", .string a.name), ("params", .ofList Parameter.toJson a.params),
    ("precondition", a.precondition.toJson), ("effects", .ofList Effect.toJson a.effects)]

def Task.toJson (t : Task) : Value :=
  .object ([("domain", .string t.domain), ("instance", .string t.instanceName),
    ("type_domains", .ofList TypeDomain.toJson t.typeDomains), ("objects", .ofStrings t.objects),
    ("predicates", .ofList PredicateSignature.toJson t.predicates),
    ("functions", .ofList FunctionSignature.toJson t.functions),
    ("actions", .ofList Action.toJson t.actions), ("init", .ofList InitialFact.toJson t.init),
    ("constraints", .ofList ConstraintUse.toJson t.constraints)] ++
    Value.member? "goal" t.goal)

/-- The task as JSON text. -/
def Task.print (t : Task) : String := t.toJson.compact

end Grounder
