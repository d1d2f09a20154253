import Grounder.Template.Basic
import Grounder.Text.Lines

/-!
# `Grounder.Template.Builtin`: the templates that need no file

There is a template for each kind of generated file and one for each kind of expression.
-/

set_option autoImplicit false

namespace Grounder.Template

/-- The unit of an action. -/
def actionText : String := Text.unlines [
  "// Generated by groundwork for $\x7bdomain\x7d/$\x7binstance\x7d. Do not edit.",
  "// action $\x7baction_name\x7d($\x7bparams_doc\x7d)",
  "#pragma once",
  "",
  "#include \"runtime.hxx\"",
  "",
  "class $\x7bclass_name\x7d : public ActionBase \x7b",
  "public:",
  "    static constexpr const char* NAME = \"$\x7baction_name\x7d\";",
  "    static constexpr unsigned ARITY = $\x7barity\x7d;",
  "",
  "    bool applicable(const State& state, const StaticData& statics, " ++
    "const Binding& binding) const \x7b",
  "$\x7bpreconditions\x7d",
  "        return true;",
  "    \x7d",
  "",
  "    void apply(State& state, const StaticData& statics, const Binding& binding) const \x7b",
  "$\x7beffects\x7d",
  "    \x7d",
  "\x7d;"]

/-- The unit of a constraint that is checked during the search. -/
def constraintText : String := Text.unlines [
  "// Generated by groundwork for $\x7bdomain\x7d/$\x7binstance\x7d. Do not edit.",
  "// $\x7borigin\x7d: $\x7bname\x7d($\x7bvariables\x7d)",
  "#pragma once",
  "",
  "#include \"runtime.hxx\"",
  "",
  "struct Constraint$\x7bid\x7d \x7b",
  "    static constexpr const char* NAME = \"$\x7bname\x7d\";",
  "    static constexpr unsigned ARITY = $\x7barity\x7d;",
  "",
  "    static bool satisfied(const std::vector<ObjectIdx>& values) \x7b",
  "        static const $\x7bruntime_class\x7d relation(\x7b$\x7bparameters\x7d\x7d);",
  "        return relation.satisfied(values);",
  "    \x7d",
  "\x7d;"]

/-- The unit that includes all others. -/
def componentsText : String := Text.unlines [
  "// Generated by groundwork for $\x7bdomain\x7d/$\x7binstance\x7d. Do not edit.",
  "#pragma once",
  "",
  "$\x7bincludes\x7d",
  "",
  "constexpr unsigned NUM_STATE_VARIABLES = $\x7bnum_variables\x7d;",
  "constexpr unsigned NUM_ACTIONS = $\x7bnum_actions\x7d;",
  "constexpr unsigned NUM_CONSTRAINTS = $\x7bnum_constraints\x7d;",
  "",
  "// Instantiations that must hold in every state.",
  "constexpr unsigned STATE_CONSTRAINTS[] = \x7b$\x7bstate_constraints\x7d\x7d;"]

/-- An atom over one argument. -/
def holdsUnaryText : String :=
  "$\x7bsource\x7d.holds_unary($\x7bsymbol_id\x7d, $\x7barg\x7d)"

/-- An atom over any other number of arguments. -/
def holdsNaryText : String :=
  "$\x7bsource\x7d.holds($\x7bsymbol_id\x7d, \x7b$\x7bargs\x7d\x7d)"

/-- The value of a function. -/
def termValueText : String :=
  "$\x7bsource\x7d.value($\x7bsymbol_id\x7d, \x7b$\x7bargs\x7d\x7d)"

/-- An effect. -/
def effectText : String :=
  "state.set($\x7bsymbol_id\x7d, \x7b$\x7bargs\x7d\x7d, $\x7bvalue\x7d);  // $\x7beffect\x7d"

/-- A constraint that is checked during the search. -/
def constraintCheckText : String :=
  "Constraint$\x7bid\x7d::satisfied(\x7b$\x7bargs\x7d\x7d)"

/-- A constraint that is decided before the search. -/
def staticConstraintCheckText : String :=
  "statics.constraint_holds($\x7bid\x7d, \x7b$\x7bargs\x7d\x7d)"

/-- The built-in templates by name, in the order in which they are listed. -/
def builtins : List (String × String) := [
  ("action", actionText),
  ("constraint", constraintText),
  ("components", componentsText),
  ("holds_unary", holdsUnaryText),
  ("holds_nary", holdsNaryText),
  ("term_value", termValueText),
  ("effect", effectText),
  ("constraint_check", constraintCheckText),
  ("static_constraint_check", staticConstraintCheckText)]

/-- The text of the built-in template of that name. -/
def builtin? (name : String) : Option String := builtins.lookup name

end Grounder.Template
