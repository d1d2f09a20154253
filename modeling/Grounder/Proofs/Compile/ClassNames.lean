import Grounder.Proofs.Code.ClassName
import Grounder.Proofs.Code.Effects
import Grounder.Proofs.Compile.Linking

/-!
# `Grounder.Proofs.Compile.ClassNames`: the classes of the actions of a task

The unit of all components includes the unit of every action, and each of these declares a class
that is named after the action. `classes_of_actions` says when the classes can stand beside each
other, for every task that compiles with the built-in templates. They can if the actions have
regular names, such as `pick-up`. In general, the classes of two actions are the same if the words
of their names are, and a class need not be an identifier: `classes_clash` is a task that compiles
although two of its actions share a class and the class of the third one begins with a digit.
-/

set_option autoImplicit false

namespace Grounder

open ClassName Template Rendering TemplateCache

/-- A text with a line that begins the declaration of an action's class of that name. -/
def DeclaresClass (name content : String) : Prop :=
  ∃ above below, content
    = Text.unlines (above ++ ("class " ++ name ++ " : public ActionBase \x7b") :: below)

/-- The unit of an action declares its class. -/
theorem declaresClass_actionUnitText
    (domain instanceName action params name arity preconditions effects : String) :
    DeclaresClass name
      (actionUnitText domain instanceName action params name arity preconditions effects) := by
  rw [actionUnitText]
  exact ⟨[_, _, _, _, _, _], _, rfl⟩

/-- The classes of all actions are identifiers, and actions of different names have different
classes. -/
def ClassesCoexist (t : Task) : Prop :=
  (∀ a ∈ t.actions, isIdentifier (className a.name) = true) ∧
    ∀ a ∈ t.actions, ∀ b ∈ t.actions, a.name ≠ b.name → className a.name ≠ className b.name

/-- Regular names lead to classes that can stand beside each other. -/
theorem classesCoexist_of_regular {t : Task} {sep : Char}
    (h : ∀ a ∈ t.actions, Regular sep a.name) : ClassesCoexist t :=
  ⟨fun a ha => (isIdentifier_className_iff a.name).2 (h a ha).startsWithDigit_eq_false,
    fun a ha b hb hne hsame => hne ((h a ha).eq_of_className_eq (h b hb) hsame)⟩

/-- The classes that a compilation declares for the actions of a task. -/
structure ActionClasses (t : Task) (out : Compilation) : Prop where
  /-- The unit of each action declares its class. -/
  declared : ∀ a ∈ t.actions, ∃ content,
    ⟨CodeSource.actionUnitName a.name, content⟩ ∈ out.artifacts.artifacts ∧
      DeclaresClass (className a.name) content
  /-- One file includes the units of all actions, so the classes stand beside each other. -/
  together : ∃ includes stateIds,
    out.artifacts.get? "components.hxx" = some ⟨"components.hxx",
      (⟨t, out.model, out.plan⟩ : CodeSource).componentsUnitContent includes stateIds⟩ ∧
    ∀ a ∈ t.actions, CodeSource.actionUnitName a.name ∈ includes
  /-- A class is an identifier unless the first letter or digit of the action's name is a digit. -/
  identifier : ∀ a ∈ t.actions,
    isIdentifier (className a.name) = true ↔ startsWithDigit a.name = false
  /-- Two actions have one class if the words of their names are the same when each is given a
  capital and they are run together. -/
  same : ∀ a ∈ t.actions, ∀ b ∈ t.actions, className a.name = className b.name
    ↔ (words a.name).flatMap capitalized = (words b.name).flatMap capitalized
  /-- Words that begin with letters and have no capitals behind them need to be the same one by
  one, up to capitals in front. -/
  plain : ∀ a ∈ t.actions, ∀ b ∈ t.actions, (∀ word ∈ words a.name, isPlain word = true) →
    (∀ word ∈ words b.name, isPlain word = true) → (className a.name = className b.name
      ↔ (words a.name).map capitalized = (words b.name).map capitalized)
  /-- Words in small letters, with one separator throughout, lead to classes that can stand beside
  each other. -/
  regular : ∀ sep, (∀ a ∈ t.actions, Regular sep a.name) → ClassesCoexist t

/-- The classes of the actions, whatever task is compiled with the built-in templates. -/
theorem classes_of_actions {t : Task} {o : CompileOptions} (requests : List String)
    {out : Compilation}
    (h : (compile t o Overrides.none (afterRequests Overrides.none requests)).1 = .ok out) :
    ActionClasses t out := by
  obtain ⟨g, hg, hmodel, hplan, hset⟩ :=
    exists_source_of_compile (faithful_afterRequests Overrides.none requests) h
  obtain ⟨rfl, -⟩ := CodeSource.task_and_plan_of_ofTask hg
  have hsource : (⟨g.task, out.model, out.plan⟩ : CodeSource) = g := by rw [hmodel, hplan]
  refine ⟨fun a ha => ?_, ⟨g.includedUnits, g.stateConstraintIds, ?_, fun a ha => ?_⟩,
    fun a _ => isIdentifier_className_iff a.name, fun a _ b _ => className_eq_iff a.name b.name,
    fun a _ b _ => className_eq_iff_of_isPlain, fun sep => classesCoexist_of_regular⟩
  · obtain ⟨position, hposition⟩ := List.getElem?_of_mem ha
    obtain ⟨preconditions, effects, -, hmem⟩ := CodeSource.exists_actionUnit_mem hset hposition
    exact ⟨_, hmem, declaresClass_actionUnitText ..⟩
  · rw [hsource]
    exact CodeSource.get?_components hset
  · exact List.mem_append_left _ (List.mem_map_of_mem ha)

/-- A task over lamps with an action of each of these names. -/
def namedActionsTask (names : List String) : Task :=
  { lampTask shiftAction with actions := names.map fun name => { shiftAction with name } }

/-- Names of small letters with hyphens are regular, so the two classes can stand beside each
other. -/
theorem classes_of_actions_shift :
    ∃ out, (compile (namedActionsTask ["shift-up", "shift-down"]) ⟨.declaration, false⟩
        Overrides.none (afterRequests Overrides.none [])).1 = .ok out ∧
      ActionClasses (namedActionsTask ["shift-up", "shift-down"]) out ∧
      ClassesCoexist (namedActionsTask ["shift-up", "shift-down"]) := by
  have hcompiles : compiles (namedActionsTask ["shift-up", "shift-down"]) ⟨.declaration, false⟩
      = true := by decide +kernel
  obtain ⟨out, hout⟩ := exists_compilation hcompiles []
  have hclasses := classes_of_actions [] hout
  have hregular : ∀ a ∈ (namedActionsTask ["shift-up", "shift-down"]).actions,
      Regular '-' a.name := by
    intro a ha
    simp only [namedActionsTask, List.map_cons, List.map_nil, List.mem_cons, List.not_mem_nil,
      or_false] at ha
    rcases ha with rfl | rfl
    · exact ⟨by decide +kernel, by decide +kernel⟩
    · exact ⟨by decide +kernel, by decide +kernel⟩
  exact ⟨out, hout, hclasses, hclasses.regular '-' hregular⟩

/-- The actions `shift-up` and `shift_up` have one class, and the class of `2nd` is no identifier,
but a task with these actions compiles. -/
theorem classes_clash :
    (∃ out, (compile (namedActionsTask ["shift-up", "shift_up", "2nd"]) ⟨.declaration, false⟩
        Overrides.none (afterRequests Overrides.none [])).1 = .ok out) ∧
      className "shift-up" = className "shift_up" ∧
      isIdentifier (className "2nd") = false ∧
      ¬ ClassesCoexist (namedActionsTask ["shift-up", "shift_up", "2nd"]) := by
  have hsame : className "shift-up" = className "shift_up" := by decide +kernel
  refine ⟨exists_compilation (by decide +kernel) [], hsame, by decide +kernel, fun h => ?_⟩
  refine h.2 { shiftAction with name := "shift-up" } ?_ { shiftAction with name := "shift_up" } ?_
    (by decide) hsame
  · exact List.mem_cons_self
  · exact List.mem_cons_of_mem _ List.mem_cons_self

end Grounder
