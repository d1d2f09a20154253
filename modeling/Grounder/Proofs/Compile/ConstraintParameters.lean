import Grounder.Proofs.Compile.Builtin
import Grounder.Proofs.Text.Quoted

/-!
# `Grounder.Proofs.Compile.ConstraintParameters`: the parameters of a constraint stay quoted

The unit of a constraint lists the parameters of the constraint as literals between two braces
(`parametersText`). A parameter is any text, so it may hold quotes, backslashes, commas and braces.

`Grounder.Proofs.Text.Quoted` shows that a list of literals can be read back whatever the texts are.
`parameters_stay_quoted` puts this together with the place of the list in the unit.
-/

set_option autoImplicit false

namespace Grounder

open Template Text.Quoted

namespace CodeSource

/-- The parameters of a constraint as its unit lists them. -/
def parametersText (c : NumberedUse) : String :=
  CodeScope.joined (c.constraint.parameters.map encode)

/-- The line of the unit of a constraint that the parameters are listed on. -/
def relationLine (c : NumberedUse) : String :=
  "        static const " ++ c.constraint.kind.runtimeClass ++ " relation(\x7b"
    ++ parametersText c ++ "\x7d);"

/-- The unit of a constraint lists its parameters, whatever the template makes of the list. -/
theorem constraintUnit_eq (g : CodeSource) (c : NumberedUse) :
    ∃ bindings : Template.Bindings, bindings.lookup "parameters" = some (parametersText c) ∧
      g.constraintUnit c = (do
        let content ← Rendering.fill "constraint" bindings
        return ⟨c.unitName, content⟩) :=
  ⟨_, rfl, rfl⟩

/-- With the built-in template, the list stands between the braces of the relation. -/
theorem constraintUnitContent_eq (g : CodeSource) (c : NumberedUse) :
    ∃ above below,
      g.constraintUnitContent c = Text.unlines (above ++ relationLine c :: below) := by
  rw [constraintUnitContent, constraintUnitText]
  exact ⟨[_, _, _, _, _, _, _, _, _, _, _], _, rfl⟩

/-- Literals cannot be taken for others. Whatever the texts are, and however their characters are
written as long as six of them have a letter after a backslash, a list of literals tells the list of
texts. Read as quoted literals it has exactly one for each text, which no line feed and no quote
breaks. The unit of a constraint lists the parameters as such literals. It hands the list over to
its template, and the built-in one puts it between the braces of the relation. -/
theorem parameters_stay_quoted :
    (∀ texts texts' written, WritesList texts written → WritesList texts' written →
      texts = texts') ∧
    (∀ texts written, WritesList texts written →
      ∃ bodies, readLiterals written.toList = some bodies ∧
        List.Forall₂ (fun (s : String) body => WritesAll s.toList body) texts bodies ∧
        (∀ body ∈ bodies, Unbroken body) ∧ '\n' ∉ written.toList) ∧
    ∀ (g : CodeSource) (c : NumberedUse),
      WritesList c.constraint.parameters (parametersText c) ∧
      (∀ c', parametersText c' = parametersText c →
        c'.constraint.parameters = c.constraint.parameters) ∧
      (∃ bindings : Template.Bindings, bindings.lookup "parameters" = some (parametersText c) ∧
        g.constraintUnit c = (do
          let content ← Rendering.fill "constraint" bindings
          return ⟨c.unitName, content⟩)) ∧
      ∃ above below, (g.constraintUnit c).result Overrides.none
        = .ok ⟨c.unitName, Text.unlines (above ++ relationLine c :: below)⟩ := by
  have hlists (c : NumberedUse) : WritesList c.constraint.parameters (parametersText c) :=
    writesList_encode c.constraint.parameters
  refine ⟨fun _ _ _ h h' => h.unique h', fun _ _ h => h.readLiterals, fun g c => ?_⟩
  refine ⟨hlists c, ?_, g.constraintUnit_eq c, ?_⟩
  · intro c' h
    have hwritten := hlists c'
    rw [h] at hwritten
    exact hwritten.unique (hlists c)
  · obtain ⟨above, below, hcontent⟩ := g.constraintUnitContent_eq c
    exact ⟨above, below, by rw [g.result_constraintUnit c, hcontent]⟩

/-- A parameter with a quote, a comma and a quote is one literal and not two, and no parameter is
not an empty one. -/
theorem parameters_stay_quoted_comma :
    let texts := ["a\", \"b"]
    let written := ", ".intercalate (texts.map encode)
    written = "\"a\\\", \\\"b\"" ∧ (∃ bodies, readLiterals written.toList = some bodies ∧
      bodies.length = 1) ∧ ¬ WritesList ["a", "b"] written ∧
      ¬ WritesList [] (", ".intercalate ([""].map encode)) := by
  intro texts written
  obtain ⟨htell, hread, -⟩ := parameters_stay_quoted
  have hwritten : WritesList texts written := writesList_encode texts
  obtain ⟨bodies, hbodies, hwrites, -⟩ := hread texts written hwritten
  refine ⟨by decide, ⟨bodies, hbodies, hwrites.length_eq.symm⟩, ?_, ?_⟩
  · intro h
    exact absurd (htell _ _ _ h hwritten) (by decide)
  · intro h
    exact absurd (htell _ _ _ h (writesList_encode [""])) (by decide)

end CodeSource

end Grounder
