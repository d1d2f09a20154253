import Grounder.Code.Statement
import Grounder.Proofs.Code.Reader

/-!
# `Grounder.Proofs.Code.Guards`: reading generated preconditions back

A condition is told by how its text begins: a comparison by its parenthesis, a negation by its
exclamation mark, and a call by who is asked what. So the readers try one kind after the other, and
a round trip says of each kind that the ones before it do not match.

* `condition?_text`: a condition is read back from its text, whatever follows.
* `readGuards_text`: the statements that leave with `false`, one on each line, are read back as
  their conditions.
-/

set_option autoImplicit false

namespace Grounder.Code

/-! ### Conditions -/

/-- The operator of a comparison, which ends at a space. -/
def operator? (cs : List Char) : Option (Comparison × List Char) :=
  let sign := cs.takeWhile (· ≠ ' ')
  (Comparison.all.find? (·.operator.toList = sign)).map fun op => (op, cs.dropWhile (· ≠ ' '))

/-- A comparison of two expressions, in parentheses. -/
def compare? (cs : List Char) : Option (Test × List Char) := do
  let cs ← after? "(".toList cs
  let (lhs, cs) ← readExpr cs
  let cs ← after? " ".toList cs
  let (op, cs) ← operator? cs
  let cs ← after? " ".toList cs
  let (rhs, cs) ← readExpr cs
  let cs ← after? ")".toList cs
  return (.compare op lhs rhs, cs)

/-- The arguments of a call in braces, up to the closing parenthesis. -/
def callArgs? (cs : List Char) : Option (List Expr × List Char) := do
  let cs ← after? "\x7b".toList cs
  let (args, cs) ← readArgs cs
  let cs ← after? ")".toList cs
  return (args, cs)

/-- The check of a constraint during the search. -/
def satisfied? (cs : List Char) : Option (Test × List Char) := do
  let cs ← after? "Constraint".toList cs
  let (constraint, cs) ← nat? cs
  let cs ← after? "::satisfied(".toList cs
  let (args, cs) ← callArgs? cs
  return (.satisfied constraint args, cs)

/-- The check of a constraint that was decided before the search. -/
def constraintHolds? (cs : List Char) : Option (Test × List Char) := do
  let cs ← after? "statics.constraint_holds(".toList cs
  let (constraint, cs) ← nat? cs
  let cs ← after? ", ".toList cs
  let (args, cs) ← callArgs? cs
  return (.constraintHolds constraint args, cs)

/-- An atom over one argument. -/
def holdsUnary? (cs : List Char) : Option (Test × List Char) := do
  let (source, symbol, cs) ← question? ".holds_unary(" cs
  let (arg, cs) ← readExpr cs
  let cs ← after? ")".toList cs
  return (.holdsUnary source symbol arg, cs)

/-- An atom over arguments in braces. -/
def holds? (cs : List Char) : Option (Test × List Char) := do
  let (source, symbol, cs) ← question? ".holds(" cs
  let (args, cs) ← callArgs? cs
  return (.holds source symbol args, cs)

/-- A test. -/
def test? (cs : List Char) : Option (Test × List Char) :=
  (compare? cs).or ((satisfied? cs).or ((constraintHolds? cs).or ((holdsUnary? cs).or (holds? cs))))

/-- A condition. -/
def condition? (cs : List Char) : Option (Condition × List Char) :=
  match after? "!(".toList cs with
  | some cs => do
    let (test, cs) ← test? cs
    let cs ← after? ")".toList cs
    return (⟨true, test⟩, cs)
  | none => (test? cs).map fun (test, cs) => (⟨false, test⟩, cs)

/-- An operator is read back from its text. -/
theorem operator?_text (op : Comparison) (rest : List Char) :
    operator? (op.operator.toList ++ (" ".toList ++ rest)) = some (op, " ".toList ++ rest) := by
  cases op <;> simp [operator?, Comparison.all, Comparison.operator]

/-- The arguments of a call are read as those arguments. -/
theorem callArgs?_text (args : List Expr) (rest : List Char) :
    callArgs? ("\x7b".toList ++ ((argsText args).toList ++ ("\x7d)".toList ++ rest)))
      = some (args, rest) := by
  have hclose : "\x7d)".toList ++ rest = "\x7d".toList ++ (")".toList ++ rest) := by simp
  simp only [callArgs?, hclose, after?_append, readArgs_text, Option.bind_eq_bind, Option.bind_some,
    Option.pure_def]

/-- A comparison is read back from its text. -/
theorem compare?_text (op : Comparison) (lhs rhs : Expr) (rest : List Char) :
    compare? ((Test.compare op lhs rhs).text.toList ++ rest)
      = some (.compare op lhs rhs, rest) := by
  have hspace : Stops (" ".toList ++ (op.operator.toList ++ (" ".toList ++ (rhs.text.toList ++
      (")".toList ++ rest))))) := stops_append rfl (by decide) _
  have hclose : Stops (")".toList ++ rest) := stops_append rfl (by decide) _
  simp only [compare?, Test.text, String.toList_append, List.append_assoc, after?_append,
    readExpr_text lhs hspace, operator?_text, readExpr_text rhs hclose, Option.bind_eq_bind,
    Option.bind_some, Option.pure_def]

/-- A check during the search is read back from its text. -/
theorem satisfied?_text (constraint : Nat) (args : List Expr) (rest : List Char) :
    satisfied? ((Test.satisfied constraint args).text.toList ++ rest)
      = some (.satisfied constraint args, rest) := by
  have hstops : ∀ cs, Stops ("::satisfied(".toList ++ cs) := stops_append rfl (by decide)
  simp only [satisfied?, Test.text, callText, satisfiedCall, String.toList_append,
    List.append_assoc, after?_append, nat?_toString constraint (hstops _), callArgs?_text,
    Option.bind_eq_bind, Option.bind_some, Option.pure_def]

/-- The definition is spelled out by `show`: its equation lemma would evaluate the literal that it
begins with. -/
theorem toList_constraintHoldsCall (constraint : Nat) :
    (constraintHoldsCall constraint).toList
      = "statics.constraint_holds(".toList ++ ((toString constraint).toList ++ ", ".toList) := by
  show ("statics.constraint_holds(" ++ toString constraint ++ ", ").toList = _
  rw [String.toList_append, String.toList_append, List.append_assoc]

/-- A check against static data is read back from its text. -/
theorem constraintHolds?_text (constraint : Nat) (args : List Expr) (rest : List Char) :
    constraintHolds? ((Test.constraintHolds constraint args).text.toList ++ rest)
      = some (.constraintHolds constraint args, rest) := by
  have hstops : ∀ cs, Stops (", ".toList ++ cs) := stops_append rfl (by decide)
  simp only [constraintHolds?, Test.text, callText, toList_constraintHoldsCall,
    String.toList_append, List.append_assoc, after?_append, nat?_toString constraint (hstops _),
    callArgs?_text, Option.bind_eq_bind, Option.bind_some, Option.pure_def]

/-- A unary question is read back from its text. -/
theorem holdsUnary?_text (source : Source) (symbol : Nat) (arg : Expr) (rest : List Char) :
    holdsUnary? ((Test.holdsUnary source symbol arg).text.toList ++ rest)
      = some (.holdsUnary source symbol arg, rest) := by
  have hclose : Stops (")".toList ++ rest) := stops_append rfl (by decide) _
  simp only [holdsUnary?, Test.text, String.toList_append, List.append_assoc, question?_text,
    readExpr_text arg hclose, after?_append, Option.bind_eq_bind, Option.bind_some,
    Option.pure_def]

/-- A question over arguments in braces is read back from its text. -/
theorem holds?_text (source : Source) (symbol : Nat) (args : List Expr) (rest : List Char) :
    holds? ((Test.holds source symbol args).text.toList ++ rest)
      = some (.holds source symbol args, rest) := by
  simp only [holds?, Test.text, callText, String.toList_append, List.append_assoc, question?_text,
    callArgs?_text, Option.bind_eq_bind, Option.bind_some, Option.pure_def]

/-- A text that does not begin with a parenthesis is no comparison. -/
theorem compare?_eq_none {c : Char} (h : '(' ≠ c) (rest : List Char) :
    compare? (c :: rest) = none := by
  rw [compare?, show "(".toList = ['('] from rfl, after?_eq_none h]
  rfl

/-- A text that does not begin with `C` is no check of a constraint during the search. -/
theorem satisfied?_eq_none {c : Char} (h : 'C' ≠ c) (rest : List Char) :
    satisfied? (c :: rest) = none := by
  rw [satisfied?, show "Constraint".toList = 'C' :: "onstraint".toList from rfl, after?_eq_none h]
  rfl

/-- What begins with the text of a source is neither of the two, and no check of a constraint that
was decided before the search if it goes on with a question. -/
theorem tests_source (source : Source) (rest : List Char) :
    compare? (source.text.toList ++ rest) = none ∧ satisfied? (source.text.toList ++ rest) = none ∧
      constraintHolds? (source.text.toList ++ (".h".toList ++ rest)) = none := by
  obtain ⟨cs, hcs⟩ : ∃ cs, source.text.toList = 's' :: cs := by
    cases source with
    | state => exact ⟨"tate".toList, rfl⟩
    | statics => exact ⟨"tatics".toList, rfl⟩
  refine ⟨?_, ?_, ?_⟩
  · rw [hcs]
    exact compare?_eq_none (by decide) _
  · rw [hcs]
    exact satisfied?_eq_none (by decide) _
  · have h : after? "statics.constraint_holds(".toList
        (source.text.toList ++ (".h".toList ++ rest)) = none := by
      cases source <;> simp [Source.text, after?]
    rw [constraintHolds?, h]
    rfl

/-- The text of a test is read as that test. -/
theorem test?_text (t : Test) (rest : List Char) :
    test? (t.text.toList ++ rest) = some (t, rest) := by
  cases t with
  | compare op lhs rhs => rw [test?, compare?_text, Option.some_or]
  | satisfied constraint args =>
    have hcompare : compare? ((Test.satisfied constraint args).text.toList ++ rest) = none := by
      simp only [Test.text, callText, satisfiedCall, String.toList_append, List.append_assoc]
      exact compare?_eq_none (c := 'C') (by decide) _
    rw [test?, hcompare, satisfied?_text]
    rfl
  | constraintHolds constraint args =>
    -- This call begins with a source, as the questions about symbols do.
    have htext : (Test.constraintHolds constraint args).text.toList ++ rest
        = Source.statics.text.toList ++ (".constraint_holds(".toList
          ++ ((toString constraint).toList ++ (", ".toList ++ ("\x7b".toList
            ++ ((argsText args).toList ++ ("\x7d)".toList ++ rest)))))) := by
      simp [Test.text, callText, toList_constraintHoldsCall, Source.text]
    have hread := constraintHolds?_text constraint args rest
    rw [htext] at hread ⊢
    rw [test?, (tests_source _ _).1, (tests_source _ _).2.1, hread]
    rfl
  | holdsUnary source symbol arg =>
    have htext : (Test.holdsUnary source symbol arg).text.toList ++ rest
        = source.text.toList ++ (".h".toList ++ ("olds_unary(".toList ++ ((toString symbol).toList
          ++ (", ".toList ++ (arg.text.toList ++ (")".toList ++ rest)))))) := by
      simp [Test.text, Source.asks]
    have hread := holdsUnary?_text source symbol arg rest
    rw [htext] at hread ⊢
    rw [test?, (tests_source _ _).1, (tests_source _ _).2.1, (tests_source _ _).2.2, hread]
    rfl
  | holds source symbol args =>
    have htext : (Test.holds source symbol args).text.toList ++ rest
        = source.text.toList ++ (".h".toList ++ ("olds(".toList ++ ((toString symbol).toList
          ++ (", ".toList ++ ("\x7b".toList ++ ((argsText args).toList ++ ("\x7d)".toList
            ++ rest))))))) := by
      simp [Test.text, callText, Source.asks]
    have hread := holds?_text source symbol args rest
    -- The question goes on after `.holds` with a parenthesis, not with an underscore.
    have hunary : ∀ cs, question? ".holds_unary("
        (source.text.toList ++ (".h".toList ++ ("olds(".toList ++ cs))) = none := fun cs =>
      question?_eq_none (by simp [after?])
    rw [htext] at hread ⊢
    rw [test?, (tests_source _ _).1, (tests_source _ _).2.1, (tests_source _ _).2.2, holdsUnary?,
      hunary, hread]
    rfl

/-- The text of a test does not begin with an exclamation mark. -/
theorem after?_bang_test (t : Test) (rest : List Char) :
    after? "!(".toList (t.text.toList ++ rest) = none := by
  cases t with
  | compare op lhs rhs => simp [Test.text, after?]
  | satisfied constraint args => simp [Test.text, callText, satisfiedCall, after?]
  | constraintHolds constraint args =>
    simp [Test.text, callText, toList_constraintHoldsCall, after?]
  | holdsUnary source symbol arg =>
    cases source <;> simp [Test.text, Source.asks, Source.text, after?]
  | holds source symbol args =>
    cases source <;> simp [Test.text, callText, Source.asks, Source.text, after?]

/-- The text of a condition is read as that condition. -/
theorem condition?_text (c : Condition) (rest : List Char) :
    condition? (c.text.toList ++ rest) = some (c, rest) := by
  obtain ⟨negated, t⟩ := c
  cases negated with
  | false =>
    have htext : (⟨false, t⟩ : Condition).text = t.text := rfl
    rw [htext, condition?, after?_bang_test, test?_text]
    rfl
  | true =>
    have htext : (⟨true, t⟩ : Condition).text.toList ++ rest
        = "!(".toList ++ (t.text.toList ++ (")".toList ++ rest)) := by
      simp [Condition.text]
    rw [htext, condition?, after?_append]
    simp only [test?_text, after?_append, Option.bind_eq_bind, Option.bind_some, Option.pure_def]

/-! ### Statements -/

/-- The condition of a statement that leaves with `false` when it fails. -/
def guard? (cs : List Char) : Option (Condition × List Char) := do
  let cs ← after? "        if (!(".toList cs
  let (c, cs) ← condition? cs
  let cs ← after? ")) return false;".toList cs
  return (c, cs)

/-- The conditions of such statements, one on each line. -/
def guards? : (lines : Nat) → List Char → Option (List Condition)
  | 0, _ => none
  | lines + 1, cs =>
    match guard? cs with
    | some (c, []) => some [c]
    | some (c, '\n' :: cs) => (guards? lines cs).map (c :: ·)
    | _ => none

/-- The conditions of the statements that a text consists of. The empty text holds none. -/
def readGuards (s : String) : Option (List Condition) :=
  if s = "" then some [] else guards? s.toList.length s.toList

/-- A statement is read as its condition. -/
theorem guard?_text (c : Condition) (rest : List Char) :
    guard? ((CodeScope.guardLine c.text).toList ++ rest) = some (c, rest) := by
  have htext : (CodeScope.guardLine c.text).toList ++ rest
      = "        if (!(".toList ++ (c.text.toList ++ (")) return false;".toList ++ rest)) := by
    simp [CodeScope.guardLine, CodeScope.statementLine]
  rw [htext]
  simp only [guard?, after?_append, condition?_text, Option.bind_eq_bind, Option.bind_some,
    Option.pure_def]

/-- The statements of conditions, one on each line. -/
def guardsText (guards : List Condition) : String :=
  "\n".intercalate (guards.map fun c => CodeScope.guardLine c.text)

/-- A further statement goes on the next line. -/
theorem guardsText_cons_cons (c c' : Condition) (rest : List Condition) :
    guardsText (c :: c' :: rest)
      = CodeScope.guardLine c.text ++ "\n" ++ guardsText (c' :: rest) := by
  rw [guardsText, List.map_cons, List.map_cons, String.intercalate_cons_cons]
  rfl

/-- A reader that goes through enough lines reads all statements. -/
theorem guards?_text (c : Condition) (rest : List Condition) (lines : Nat)
    (hlines : rest.length < lines) :
    guards? lines (guardsText (c :: rest)).toList = some (c :: rest) := by
  obtain ⟨lines, rfl⟩ : ∃ n, lines = n + 1 := ⟨lines - 1, by omega⟩
  induction rest generalizing c lines with
  | nil =>
    have hread := guard?_text c []
    rw [List.append_nil] at hread
    rw [guardsText, List.map_singleton, String.intercalate_singleton, guards?, hread]
  | cons c' rest ih =>
    rw [List.length_cons] at hlines
    obtain ⟨lines, rfl⟩ : ∃ n, lines = n + 1 := ⟨lines - 1, by omega⟩
    rw [guardsText_cons_cons, String.toList_append, String.toList_append, List.append_assoc,
      guards?, guard?_text]
    show (guards? (lines + 1) (guardsText (c' :: rest)).toList).map (c :: ·) = _
    rw [ih c' lines (by omega)]
    rfl

/-- The text of statements is longer than there are statements. -/
theorem length_lt_guardsText (c : Condition) (rest : List Condition) :
    rest.length < (guardsText (c :: rest)).toList.length := by
  induction rest generalizing c with
  | nil =>
    have hline : (guardsText [c]).toList.length
        = (CodeScope.guardLine c.text).toList.length := by
      rw [guardsText, List.map_singleton, String.intercalate_singleton]
    rw [hline, CodeScope.guardLine, CodeScope.statementLine, String.toList_append,
      List.length_append]
    show 0 < 8 + _
    omega
  | cons c' rest ih =>
    have h := ih c'
    have hfeed : "\n".toList.length = 1 := rfl
    rw [guardsText_cons_cons, String.toList_append, String.toList_append, List.length_append,
      List.length_append, List.length_cons]
    omega

/-- The text of statements is read as their conditions. -/
theorem readGuards_text (guards : List Condition) :
    readGuards (guardsText guards) = some guards := by
  cases guards with
  | nil => rfl
  | cons c rest =>
    have hlength := length_lt_guardsText c rest
    have hne : guardsText (c :: rest) ≠ "" := by
      intro h
      rw [h] at hlength
      exact absurd hlength (by simp)
    rw [readGuards, if_neg hne]
    exact guards?_text c rest _ hlength

end Grounder.Code
