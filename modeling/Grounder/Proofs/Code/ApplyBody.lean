import Grounder.Proofs.Code.Assignment
import Grounder.Proofs.Template.Fill
import Grounder.Proofs.Text.Lines

/-!
# `Grounder.Proofs.Code.ApplyBody`: the statements in the unit of an action

In the body of `apply` every statement has a line, and the rest of its line is a comment. The
comment tells which effect the statement is for, with names as the task has them. So it ends where
the line does only if no name holds a line end or joins the next line to it (`EndsWithLine`).

`readApply` goes by the lines of a unit, without any knowledge of what wrote it: it finds the body
between the line that begins `apply` and the ones that close it and the class, and every line in it
is empty or one statement. `readApply_statementsText` says that the statements of a unit are read
back if their comments end with their lines. A comment with a line feed may add one
(`readApply_line_feed`).
-/

set_option autoImplicit false

namespace Grounder.Code

open Template Proofs.Support

/-! ### Comments -/

/-- A comment that ends where its line does: it holds no line end, and no backslash at its end joins
the next line to it. Blanks behind the backslash do not matter, and in older dialects it may be
written with question marks. -/
def EndsWithLine (comment : List Char) : Prop :=
  let fromEnd := comment.reverse.dropWhile (·.toNat ≤ 32)
  '\n' ∉ comment ∧ '\r' ∉ comment ∧ fromEnd.head? ≠ some '\\' ∧ fromEnd.take 3 ≠ "/??".toList

instance (comment : List Char) : Decidable (EndsWithLine comment) := by
  unfold EndsWithLine
  infer_instance

/-- The statement on a line, where nothing but a comment that ends with the line follows it. -/
def readSet (line : List Char) : Option SetStatement := do
  let (st, cs) ← set? line
  let comment ← after? "  // ".toList cs
  if EndsWithLine comment then some st else none

/-- A statement is read back from its line if the comment behind it ends with the line. -/
theorem readSet_line (st : SetStatement) {comment : String}
    (hcomment : EndsWithLine comment.toList) :
    readSet (st.line comment).toList = some st := by
  simp only [readSet, set?_line, after?_append, Option.bind_eq_bind, Option.bind_some,
    if_pos hcomment]

/-! ### The body of `apply` -/

/-- The line that begins the body. -/
def applyHead : String :=
  "    void apply(State& state, const StaticData& statics, const Binding& binding) const \x7b"

/-- The lines of the body. Behind it, the function and the class are closed, and the text ends. -/
def bodyOfApply? (content : String) : Option (List (List Char)) :=
  match (content.toList.splitOn '\n').reverse with
  | last :: closesClass :: closesBody :: rest =>
    if [closesBody, closesClass, last] = ["    \x7d", "\x7d;", ""].map String.toList ∧
        applyHead.toList ∈ rest then
      some (rest.takeWhile (· ≠ applyHead.toList)).reverse
    else none
  | _ => none

/-- The statements of the body, one on each line that is not empty. -/
def readApply (content : String) : Option (List SetStatement) :=
  (bodyOfApply? content).bind fun lines => (lines.filter (· ≠ [])).mapM readSet

/-- The body of `apply` in the unit of an action is what stands there for the effects, as long as
none of its lines begins a body. -/
theorem bodyOfApply?_actionUnitText
    (domain instanceName action params class_ arity preconditions : String) {effects : String}
    (h : applyHead.toList ∉ effects.toList.splitOn '\n') :
    bodyOfApply? (actionUnitText domain instanceName action params class_ arity preconditions
      effects) = some (effects.toList.splitOn '\n') := by
  obtain ⟨above, habove⟩ : ∃ above, actionUnitText domain instanceName action params class_ arity
      preconditions effects
        = Text.unlines (above ++ [applyHead, effects, "    \x7d", "\x7d;"]) :=
    ⟨[_, _, _, _, _, _, _, _, _, _, _, _, _, _, _, _], rfl⟩
  have hhead : applyHead.toList.splitOn '\n' = [applyHead.toList] :=
    List.splitOn_eq_singleton (by decide)
  have hcloses : ["    \x7d", "\x7d;"].flatMap (fun text => text.toList.splitOn '\n')
      = ["    \x7d".toList, "\x7d;".toList] := rfl
  have hpieces : ((Text.unlines (above ++ [applyHead, effects, "    \x7d", "\x7d;"])).toList.splitOn
        '\n').reverse
      = "".toList :: "\x7d;".toList :: "    \x7d".toList ::
        ((effects.toList.splitOn '\n').reverse ++ applyHead.toList ::
          (above.flatMap fun text => text.toList.splitOn '\n').reverse) := by
    rw [splitOn_unlines_eq_flatMap, List.flatMap_append, List.flatMap_cons, List.flatMap_cons,
      hhead, hcloses]
    simp only [List.reverse_append, List.reverse_cons, List.reverse_nil, List.nil_append,
      List.cons_append, List.append_assoc]
    rfl
  -- From the end, the body is what comes before the line that begins it.
  have hbody (above : List (List Char)) :
      ((effects.toList.splitOn '\n').reverse ++ applyHead.toList :: above).takeWhile
        (· ≠ applyHead.toList) = (effects.toList.splitOn '\n').reverse := by
    generalize applyHead.toList = head at h ⊢
    rw [List.takeWhile_append_of_pos, List.takeWhile_cons_of_neg (by simp), List.append_nil]
    intro line hline
    rw [decide_eq_true_iff]
    exact fun heq => h (heq ▸ List.mem_reverse.1 hline)
  rw [bodyOfApply?, habove, hpieces]
  show (if _ then _ else _) = _
  rw [if_pos ⟨rfl, List.mem_append_right _ List.mem_cons_self⟩, hbody, List.reverse_reverse]

/-! ### The texts of statements -/

mutual

/-- The text of an expression holds no line feed. -/
theorem feed_not_mem_text (e : Expr) : '\n' ∉ e.text.toList := by
  cases e with
  | binding position =>
    rw [Expr.text]
    simp only [String.toList_append, List.mem_append, not_or]
    exact ⟨⟨by decide, not_mem_toString position (by decide)⟩, by decide⟩
  | literal n => exact not_mem_toString_int n (by decide) (by decide)
  | value source symbol args =>
    have hsource : '\n' ∉ source.text.toList := by cases source <;> decide
    simp only [Expr.text, Source.asks, String.toList_append, List.mem_append, not_or]
    exact ⟨⟨⟨⟨⟨⟨hsource, by decide⟩, not_mem_toString symbol (by decide)⟩, by decide⟩, by decide⟩,
      not_mem_intercalate (by decide) (feed_not_mem_texts args)⟩, by decide⟩

/-- The texts of expressions hold no line feed. -/
theorem feed_not_mem_texts (args : List Expr) : ∀ text ∈ texts args, '\n' ∉ text.toList := by
  cases args with
  | nil => exact fun _ h => nomatch h
  | cons e rest =>
    rw [texts, List.forall_mem_cons]
    exact ⟨feed_not_mem_text e, feed_not_mem_texts rest⟩

end

/-- The line of a statement holds no line feed if the comment holds none. -/
theorem feed_not_mem_line (st : SetStatement) {comment : String} (h : '\n' ∉ comment.toList) :
    '\n' ∉ (st.line comment).toList := by
  have hargs : '\n' ∉ (argsText st.args).toList :=
    not_mem_intercalate (by decide) (feed_not_mem_texts st.args)
  have hvalue : '\n' ∉ st.value.text.toList := by
    cases st.value with
    | token b => cases b <;> decide
    | expr e => exact feed_not_mem_text e
  have htext : '\n' ∉ st.text.toList := by
    show '\n' ∉ ("state.set(" ++ toString st.symbol ++ ", \x7b" ++ argsText st.args ++ "\x7d, "
      ++ st.value.text ++ ");").toList
    simp only [String.toList_append, List.mem_append, not_or]
    exact ⟨⟨⟨⟨⟨⟨by decide, not_mem_toString st.symbol (by decide)⟩, by decide⟩, hargs⟩,
      by decide⟩, hvalue⟩, by decide⟩
  show '\n' ∉ ("        " ++ (st.text ++ "  // " ++ comment)).toList
  rw [String.toList_append, String.toList_append, String.toList_append]
  simp only [List.mem_append, not_or]
  exact ⟨by decide, ⟨htext, by decide⟩, h⟩

/-- No line of a statement begins a body. -/
theorem line_ne_applyHead (st : SetStatement) (comment : String) :
    (st.line comment).toList ≠ applyHead.toList := by
  intro h
  have hread := set?_line st comment
  rw [h] at hread
  cases hread

/-- No line of a statement is empty. -/
theorem line_ne_nil (st : SetStatement) (comment : String) : (st.line comment).toList ≠ [] := by
  intro h
  have hread := set?_line st comment
  rw [h] at hread
  cases hread

/-- The lines of statements, each with the comment behind it. -/
def statementLines (statements : List SetStatement) (comments : List String) : List String :=
  (statements.zip comments).map fun entry => entry.1.line entry.2

/-- Statements as the body of `apply`. -/
def statementsText (statements : List SetStatement) (comments : List String) : String :=
  "\n".intercalate (statementLines statements comments)

variable {statements : List SetStatement} {comments : List String}

/-- A line of statements is that of a statement and a comment. -/
theorem exists_of_mem_statementLines {line : String}
    (h : line ∈ statementLines statements comments) :
    ∃ st : SetStatement, ∃ comment ∈ comments, line = st.line comment := by
  obtain ⟨⟨st, comment⟩, hmem, rfl⟩ := List.mem_map.1 h
  exact ⟨st, comment, (List.of_mem_zip hmem).2, rfl⟩

/-- The lines of statements are read one by one. -/
theorem mapM_readSet_statementLines (hlength : statements.length = comments.length)
    (hcomments : ∀ comment ∈ comments, EndsWithLine comment.toList) :
    ((statementLines statements comments).map String.toList).mapM readSet = some statements := by
  induction statements generalizing comments with
  | nil => rfl
  | cons st rest ih =>
    cases comments with
    | nil => cases hlength
    | cons comment comments =>
      rw [List.forall_mem_cons] at hcomments
      have hrest := ih (Nat.succ.inj hlength) hcomments.2
      rw [statementLines] at hrest
      rw [statementLines, List.zip_cons_cons, List.map_cons, List.map_cons, List.mapM_cons,
        readSet_line st hcomments.1, hrest]
      rfl

/-- The body that statements make is split into their lines, and into an empty line if there are
none. -/
theorem splitOn_statementsText (statements : List SetStatement)
    (hcomments : ∀ comment ∈ comments, EndsWithLine comment.toList) :
    (statementsText statements comments).toList.splitOn '\n'
      = if statementLines statements comments = [] then [[]]
        else (statementLines statements comments).map String.toList := by
  have hfeeds : ∀ line ∈ (statementLines statements comments).map String.toList, '\n' ∉ line := by
    rw [List.forall_mem_map]
    intro line hline
    obtain ⟨st, comment, hcomment, rfl⟩ := exists_of_mem_statementLines hline
    exact feed_not_mem_line st (hcomments comment hcomment).1
  rw [statementsText]
  split
  · rename_i hnone
    rw [hnone]
    rfl
  · -- No line holds what the lines are put together with, so splitting gives them back.
    rename_i hsome
    rw [String.toList_intercalate]
    exact List.splitOn_intercalate '\n' hfeeds (by simpa using hsome)

/-- The statements in the unit of an action are read back from it if there is a comment for each of
them that ends with its line. -/
theorem readApply_statementsText
    (domain instanceName action params class_ arity preconditions : String)
    (hlength : statements.length = comments.length)
    (hcomments : ∀ comment ∈ comments, EndsWithLine comment.toList) :
    readApply (actionUnitText domain instanceName action params class_ arity preconditions
      (statementsText statements comments)) = some statements := by
  have hpieces := splitOn_statementsText statements hcomments
  have hread := mapM_readSet_statementLines hlength hcomments
  have hlines : ∀ line ∈ (statementLines statements comments).map String.toList,
      line ≠ applyHead.toList ∧ line ≠ [] := by
    rw [List.forall_mem_map]
    intro line hline
    obtain ⟨st, comment, -, rfl⟩ := exists_of_mem_statementLines hline
    exact ⟨line_ne_applyHead st comment, line_ne_nil st comment⟩
  split at hpieces
  · -- Without a statement, the body is one empty line, which is passed over.
    rename_i hnone
    rw [hnone] at hread
    cases hread
    rw [readApply, bodyOfApply?_actionUnitText _ _ _ _ _ _ _ (by rw [hpieces]; decide), hpieces]
    rfl
  · -- No line is passed over, and none begins a body of its own.
    rw [readApply, bodyOfApply?_actionUnitText, hpieces, Option.bind_some, List.filter_eq_self.2,
      hread]
    · intro line hline
      rw [decide_eq_true_iff]
      exact (hlines line hline).2
    · rw [hpieces]
      exact fun hmem => (hlines _ hmem).1 rfl

/-- A comment with a line feed may have the line of a further statement behind it, which is then read
like the one that it belongs to. -/
theorem readApply_line_feed
    (domain instanceName action params class_ arity preconditions : String)
    (st further : SetStatement) {front back : String} (hfront : EndsWithLine front.toList)
    (hback : EndsWithLine back.toList) :
    readApply (actionUnitText domain instanceName action params class_ arity preconditions
      (statementsText [st] [front ++ "\n" ++ further.line back])) = some [st, further] := by
  -- The same text has a line for either statement.
  have htext : statementsText [st] [front ++ "\n" ++ further.line back]
      = statementsText [st, further] [front, back] := by
    simp [statementsText, statementLines, SetStatement.line, String.append_assoc]
  rw [htext]
  exact readApply_statementsText _ _ _ _ _ _ _ rfl (by simp [hfront, hback])

end Grounder.Code
