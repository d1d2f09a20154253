import Grounder.Proofs.Template.Fill

/-!
# `Grounder.Proofs.Template.Units`: the built-in templates of constraints and components

The templates of the unit of a constraint and of the unit of all components, cut line by line as
the template of actions is. They become `constraintUnitText` and `componentsUnitText`.
-/

set_option autoImplicit false

namespace Grounder

namespace Template

/-! ### The template of constraints -/

/-- The unit of a constraint. -/
def constraintUnitText
    (domain instanceName origin name vars id arity runtimeClass parameters : String) : String :=
  Text.unlines [
  "// Generated by groundwork for " ++ domain ++ "/" ++ instanceName ++ ". Do not edit.",
  "// " ++ origin ++ ": " ++ name ++ "(" ++ vars ++ ")",
  "#pragma once",
  "",
  "#include \"runtime.hxx\"",
  "",
  "struct Constraint" ++ id ++ " \x7b",
  "    static constexpr const char* NAME = \"" ++ name ++ "\";",
  "    static constexpr unsigned ARITY = " ++ arity ++ ";",
  "",
  "    static bool satisfied(const std::vector<ObjectIdx>& values) \x7b",
  "        static const " ++ runtimeClass ++ " relation(\x7b" ++ parameters ++ "\x7d);",
  "        return relation.satisfied(values);",
  "    \x7d",
  "\x7d;"]

/-- The template of a constraint, line by line. -/
def constraintCuts : List (List Stretch) := [
  [.text "// Generated by groundwork for ", .slot "domain", .text "/", .slot "instance",
    .text ". Do not edit."],
  [.text "// ", .slot "origin", .text ": ", .slot "name", .text "(", .slot "variables",
    .text ")"],
  [.text "#pragma once"],
  [.text ""],
  [.text "#include \"runtime.hxx\""],
  [.text ""],
  [.text "struct Constraint", .slot "id", .text " \x7b"],
  [.text "    static constexpr const char* NAME = \"", .slot "name", .text "\";"],
  [.text "    static constexpr unsigned ARITY = ", .slot "arity", .text ";"],
  [.text ""],
  [.text "    static bool satisfied(const std::vector<ObjectIdx>& values) \x7b"],
  [.text "        static const ", .slot "runtime_class", .text " relation(\x7b",
    .slot "parameters", .text "\x7d);"],
  [.text "        return relation.satisfied(values);"],
  [.text "    \x7d"],
  [.text "\x7d;"]]

/-- The template of a constraint defines the class that checks it. -/
theorem result_fill_constraint
    (domain instanceName origin name vars id arity runtimeClass parameters : String) :
    (Rendering.fill "constraint" [("domain", domain), ("instance", instanceName),
        ("origin", origin), ("name", name), ("variables", vars), ("id", id), ("arity", arity),
        ("runtime_class", runtimeClass), ("parameters", parameters)]).result Overrides.none
      = .ok (constraintUnitText domain instanceName origin name vars id arity runtimeClass
          parameters) := by
  rw [result_fill_lines constraintCuts rfl rfl]
  · simp [constraintCuts, constraintUnitText, Stretch.filled, List.lookup_cons, String.append_assoc]
  · simp only [constraintCuts, List.forall_mem_cons, List.not_mem_nil, false_implies, implies_true,
      and_true]
    and_intros <;> first | exact isPlain_text rfl (by decide) | exact isPlain_slot rfl (by decide)
  · simp [constraintCuts, Stretch.IsBound, List.lookup_cons]

/-! ### The template of all components -/

/-- The unit of all components. -/
def componentsUnitText
    (domain instanceName includes size actions constraints stateConstraints : String) :
    String := Text.unlines [
  "// Generated by groundwork for " ++ domain ++ "/" ++ instanceName ++ ". Do not edit.",
  "#pragma once",
  "",
  includes,
  "",
  "constexpr unsigned NUM_STATE_VARIABLES = " ++ size ++ ";",
  "constexpr unsigned NUM_ACTIONS = " ++ actions ++ ";",
  "constexpr unsigned NUM_CONSTRAINTS = " ++ constraints ++ ";",
  "",
  "// Instantiations that must hold in every state.",
  "constexpr unsigned STATE_CONSTRAINTS[] = \x7b" ++ stateConstraints ++ "\x7d;"]

/-- The template of all components, line by line. -/
def componentsCuts : List (List Stretch) := [
  [.text "// Generated by groundwork for ", .slot "domain", .text "/", .slot "instance",
    .text ". Do not edit."],
  [.text "#pragma once"],
  [.text ""],
  [.slot "includes"],
  [.text ""],
  [.text "constexpr unsigned NUM_STATE_VARIABLES = ", .slot "num_variables", .text ";"],
  [.text "constexpr unsigned NUM_ACTIONS = ", .slot "num_actions", .text ";"],
  [.text "constexpr unsigned NUM_CONSTRAINTS = ", .slot "num_constraints", .text ";"],
  [.text ""],
  [.text "// Instantiations that must hold in every state."],
  [.text "constexpr unsigned STATE_CONSTRAINTS[] = \x7b", .slot "state_constraints",
    .text "\x7d;"]]

/-- The template of all components puts the includes in front of the constants. -/
theorem result_fill_components
    (domain instanceName includes size actions constraints stateConstraints : String) :
    (Rendering.fill "components" [("domain", domain), ("instance", instanceName),
        ("includes", includes), ("num_variables", size), ("num_actions", actions),
        ("num_constraints", constraints), ("state_constraints", stateConstraints)]).result
          Overrides.none
      = .ok (componentsUnitText domain instanceName includes size actions constraints
          stateConstraints) := by
  rw [result_fill_lines componentsCuts rfl rfl]
  · simp [componentsCuts, componentsUnitText, Stretch.filled, List.lookup_cons, String.append_assoc]
  · simp only [componentsCuts, List.forall_mem_cons, List.not_mem_nil, false_implies, implies_true,
      and_true]
    and_intros <;> first | exact isPlain_text rfl (by decide) | exact isPlain_slot rfl (by decide)
  · simp [componentsCuts, Stretch.IsBound, List.lookup_cons]

end Template

end Grounder
