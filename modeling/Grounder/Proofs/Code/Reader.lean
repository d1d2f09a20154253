import Grounder.Proofs.Code.Language
import Grounder.Proofs.Support.Decimal

/-!
# `Grounder.Proofs.Code.Reader`: reading generated expressions back

The readers take the text of expressions apart, without any knowledge of what wrote it. Each of
them returns what it read and the characters after it. Readers that follow the nesting of what they
read take a bound on its depth, which the functions without one compute from the length of the
text.

`readExpr_text` and `readArgs_text` say that reading a text gives back what it writes. A number
ends where its digits end, so the text behind an expression must not go on with a digit
(`Stops`).
-/

set_option autoImplicit false

namespace Grounder.Code

open Proofs.Support

/-! ### Fixed texts and numbers -/

/-- The characters after a fixed text. -/
def after? : List Char → List Char → Option (List Char)
  | [], cs => some cs
  | c :: fixed, d :: cs => if c = d then after? fixed cs else none
  | _ :: _, [] => none

/-- The characters after a fixed text are what follows it. -/
@[simp] theorem after?_append (fixed rest : List Char) :
    after? fixed (fixed ++ rest) = some rest := by
  induction fixed with
  | nil => rfl
  | cons c fixed ih =>
    rw [List.cons_append, after?, if_pos rfl]
    exact ih

/-- A text that begins with another character does not begin with a fixed text. -/
theorem after?_eq_none {c d : Char} (h : c ≠ d) (fixed rest : List Char) :
    after? (c :: fixed) (d :: rest) = none := by
  rw [after?, if_neg h]

/-- The number that leading digits write. -/
def nat? (cs : List Char) : Option (Nat × List Char) :=
  let digits := cs.takeWhile Char.isDigit
  if digits.isEmpty then none
  else some (Nat.ofDigitChars 10 digits 0, cs.dropWhile Char.isDigit)

/-- The integer that leading digits write, with or without a minus. -/
def int? : List Char → Option (Int × List Char)
  | '-' :: cs => (nat? cs).map fun (n, rest) => (-(n : Int), rest)
  | cs => (nat? cs).map fun (n, rest) => ((n : Int), rest)

/-- A text that does not go on with a digit. -/
def Stops (rest : List Char) : Prop := ∀ c ∈ rest.head?, c.isDigit = false

/-- A text whose first character is no digit stops. A literal is spelled out by `rfl`. -/
theorem stops_append {fixed : String} {c : Char} {cs : List Char}
    (hfixed : fixed = String.ofList (c :: cs)) (h : c.isDigit = false) (rest : List Char) :
    Stops (fixed.toList ++ rest) := by
  rw [hfixed, String.toList_ofList]
  intro d hd
  cases hd
  exact h

/-- Digits in front of a text that stops are taken off as a whole. -/
theorem takeWhile_isDigit_append {digits rest : List Char} (h : ∀ c ∈ digits, c.isDigit = true)
    (hrest : Stops rest) :
    (digits ++ rest).takeWhile Char.isDigit = digits ∧
      (digits ++ rest).dropWhile Char.isDigit = rest := by
  rw [List.takeWhile_append_of_pos h, List.dropWhile_append_of_pos h]
  cases rest with
  | nil => simp
  | cons c rest =>
    have hc : c.isDigit = false := hrest c rfl
    simp [hc]

/-- The digits of a number are read as that number. -/
theorem nat?_toString (n : Nat) {rest : List Char} (hrest : Stops rest) :
    nat? ((toString n).toList ++ rest) = some (n, rest) := by
  have hall : ∀ c ∈ Nat.toDigits 10 n, c.isDigit = true := fun c hc =>
    Nat.isDigit_of_mem_toDigits (by decide) (by decide) hc
  obtain ⟨htake, hdrop⟩ := takeWhile_isDigit_append hall hrest
  rw [toList_toString, nat?, htake, hdrop, Nat.ofDigitChars_ten_toDigits, if_neg]
  simp [Nat.toDigits_ne_nil]

/-- The text of an integer is read as that integer. -/
theorem int?_toString (n : Int) {rest : List Char} (hrest : Stops rest) :
    int? ((toString n).toList ++ rest) = some (n, rest) := by
  cases n with
  | ofNat n =>
    show int? ((toString n).toList ++ rest) = _
    obtain ⟨d, digits, h, hd⟩ := head_toString n
    have hne : d ≠ '-' := by
      rintro rfl
      exact absurd hd (by decide)
    have hread := nat?_toString n hrest
    rw [h, List.cons_append] at hread ⊢
    rw [int?, hread]
    · rfl
    · intro cs heq
      exact hne (List.cons.inj heq).1
  | negSucc n =>
    rw [toList_toString_negSucc, List.cons_append, int?, nat?_toString (n + 1) hrest]
    rfl

/-! ### Questions about symbols -/

/-- Who is asked. -/
def source? (cs : List Char) : Option (Source × List Char) :=
  ((after? "state".toList cs).map fun rest => (.state, rest)).or
    ((after? "statics".toList cs).map fun rest => (.statics, rest))

/-- A question about a symbol, up to the arguments after the symbol's number. -/
def question? (call : String) (cs : List Char) : Option (Source × Nat × List Char) := do
  let (source, cs) ← source? cs
  let cs ← after? call.toList cs
  let (symbol, cs) ← nat? cs
  let cs ← after? ", ".toList cs
  return (source, symbol, cs)

/-- The text of a source is read as that source. -/
theorem source?_text (source : Source) (rest : List Char) :
    source? (source.text.toList ++ rest) = some (source, rest) := by
  cases source with
  | state => rw [source?, Source.text, after?_append]; rfl
  | statics =>
    rw [source?, Source.text, after?_append]
    simp [after?]

/-- The text of a question is read as that question. -/
theorem question?_text (call : String) (source : Source) (symbol : Nat) (rest : List Char) :
    question? call ((source.asks call symbol).toList ++ rest) = some (source, symbol, rest) := by
  have hstops : Stops (", ".toList ++ rest) := stops_append rfl (by decide) _
  simp only [question?, Source.asks, String.toList_append, List.append_assoc, source?_text,
    after?_append, nat?_toString symbol hstops, Option.bind_eq_bind, Option.bind_some,
    Option.pure_def]

/-- A text that goes on with something else after the source is not that question. -/
theorem question?_eq_none {call : String} {source : Source} {rest : List Char}
    (h : after? call.toList rest = none) :
    question? call (source.text.toList ++ rest) = none := by
  simp only [question?, source?_text, h, Option.bind_eq_bind, Option.bind_some, Option.bind_none]

/-- A text that does not begin with a source is no question. -/
theorem question?_eq_none_of_ne {call : String} {c : Char} {rest : List Char} (h : c ≠ 's') :
    question? call (c :: rest) = none := by
  have hsource : source? (c :: rest) = none := by
    simp [source?, after?, Ne.symm h]
  rw [question?, hsource]
  rfl

/-! ### Expressions -/

/-- A parameter by its position. -/
def binding? (cs : List Char) : Option (Expr × List Char) := do
  let cs ← after? "binding[".toList cs
  let (position, cs) ← nat? cs
  let cs ← after? "]".toList cs
  return (.binding position, cs)

mutual

/-- An expression. -/
def expr? : (depth : Nat) → List Char → Option (Expr × List Char)
  | 0, _ => none
  | depth + 1, cs =>
    match question? ".value(" cs with
    | some (source, symbol, cs) => do
      let cs ← after? "\x7b".toList cs
      let (args, cs) ← args? depth cs
      let cs ← after? ")".toList cs
      return (.value source symbol args, cs)
    | none => (binding? cs).or ((int? cs).map fun (n, cs) => (.literal n, cs))

/-- Expressions up to the closing brace. -/
def args? : (depth : Nat) → List Char → Option (List Expr × List Char)
  | 0, _ => none
  | depth + 1, cs =>
    match expr? depth cs with
    | some (e, '\x7d' :: cs) => some ([e], cs)
    | some (e, ',' :: ' ' :: cs) => (args? depth cs).map fun (args, cs) => (e :: args, cs)
    | some _ => none
    | none => (after? "\x7d".toList cs).map fun cs => ([], cs)

end

/-- The expression in front of a text. -/
def readExpr (cs : List Char) : Option (Expr × List Char) := expr? cs.length cs

/-- The arguments in front of a text, up to the closing brace. -/
def readArgs (cs : List Char) : Option (List Expr × List Char) := args? cs.length cs

mutual

/-- How deep a reader of the expression has to go. -/
def Expr.depth : Expr → Nat
  | .binding _ => 1
  | .literal _ => 1
  | .value _ _ args => argsDepth args + 1

/-- How deep a reader of the arguments has to go. -/
def argsDepth : List Expr → Nat
  | [] => 1
  | e :: rest => max e.depth (argsDepth rest) + 1

end

/-- No expression begins with a closing brace. -/
theorem expr?_brace (depth : Nat) (rest : List Char) : expr? depth ('\x7d' :: rest) = none := by
  cases depth with
  | zero => rfl
  | succ depth =>
    rw [expr?, question?_eq_none_of_ne (by decide)]
    simp [binding?, after?, int?, nat?]

/-- A parameter is read as that parameter. -/
theorem expr?_binding (depth position : Nat) (rest : List Char) :
    expr? (depth + 1) ((Expr.binding position).text.toList ++ rest)
      = some (.binding position, rest) := by
  have hstops : Stops ("]".toList ++ rest) := stops_append rfl (by decide) _
  have hquestion : question? ".value(" ("binding[".toList ++
      ((toString position).toList ++ ("]".toList ++ rest))) = none :=
    question?_eq_none_of_ne (by decide)
  simp only [Expr.text, String.toList_append, List.append_assoc]
  rw [expr?, hquestion]
  simp only [binding?, after?_append, nat?_toString position hstops, Option.bind_eq_bind,
    Option.bind_some, Option.pure_def, Option.some_or]

/-- An integer is read as that integer. -/
theorem expr?_literal (depth : Nat) (n : Int) {rest : List Char} (hrest : Stops rest) :
    expr? (depth + 1) ((Expr.literal n).text.toList ++ rest) = some (.literal n, rest) := by
  have hread := int?_toString n hrest
  obtain ⟨d, digits, h, hd⟩ := head_toString_int n
  have hs : d ≠ 's' := by
    rintro rfl
    exact absurd hd (by decide)
  have hb : 'b' ≠ d := by
    rintro rfl
    exact absurd hd (by decide)
  have hbinding : binding? (d :: (digits ++ rest)) = none := by
    rw [binding?, show "binding[".toList = 'b' :: "inding[".toList from by decide,
      after?_eq_none hb]
    rfl
  rw [h, List.cons_append] at hread
  rw [Expr.text, h, List.cons_append, expr?, question?_eq_none_of_ne hs, hbinding, hread]
  rfl

/-- The text of two arguments or more: the first one, a comma, and the text of the others. -/
theorem argsText_cons_cons (e e' : Expr) (rest : List Expr) :
    argsText (e :: e' :: rest) = e.text ++ ", " ++ argsText (e' :: rest) := by
  rw [argsText, texts, texts, String.intercalate_cons_cons]
  rfl

/-- A single argument stands alone. -/
theorem argsText_singleton (e : Expr) : argsText [e] = e.text := by
  rw [argsText, texts, texts, String.intercalate_singleton]

mutual

/-- The text of an expression is read as that expression, by any reader that goes deep enough. -/
theorem expr?_text (e : Expr) (depth : Nat) (rest : List Char) (hdepth : e.depth ≤ depth)
    (hrest : Stops rest) : expr? depth (e.text.toList ++ rest) = some (e, rest) := by
  cases e with
  | binding position =>
    obtain ⟨depth, rfl⟩ := Nat.exists_eq_add_of_le' hdepth
    exact expr?_binding depth position rest
  | literal n =>
    obtain ⟨depth, rfl⟩ := Nat.exists_eq_add_of_le' hdepth
    exact expr?_literal depth n hrest
  | value source symbol args =>
    obtain ⟨depth, rfl⟩ : ∃ d, depth = d + 1 := ⟨depth - 1, by rw [Expr.depth] at hdepth; omega⟩
    -- One level is spent on the call, and what is left is enough for the arguments.
    have hargs : argsDepth args ≤ depth := by rw [Expr.depth] at hdepth; omega
    have htext : (Expr.value source symbol args).text.toList ++ rest
        = (source.asks ".value(" symbol).toList
          ++ ("\x7b".toList ++ ((argsText args).toList ++ ("\x7d".toList
            ++ (")".toList ++ rest)))) := by
      simp [Expr.text, argsText]
    rw [htext, expr?, question?_text]
    simp only [after?_append, args?_text args depth (")".toList ++ rest) hargs,
      Option.bind_eq_bind, Option.bind_some, Option.pure_def]

/-- The text of arguments and the closing brace are read as those arguments. -/
theorem args?_text (args : List Expr) (depth : Nat) (rest : List Char)
    (hdepth : argsDepth args ≤ depth) :
    args? depth ((argsText args).toList ++ ("\x7d".toList ++ rest)) = some (args, rest) := by
  cases args with
  | nil =>
    obtain ⟨depth, rfl⟩ := Nat.exists_eq_add_of_le' hdepth
    show args? (depth + 1) ('\x7d' :: rest) = _
    rw [args?, expr?_brace]
    rfl
  | cons e args =>
    obtain ⟨depth, rfl⟩ : ∃ d, depth = d + 1 := ⟨depth - 1, by rw [argsDepth] at hdepth; omega⟩
    have he : e.depth ≤ depth := by rw [argsDepth] at hdepth; omega
    have hargs : argsDepth args ≤ depth := by rw [argsDepth] at hdepth; omega
    cases args with
    | nil =>
      have hstops : Stops ("\x7d".toList ++ rest) := stops_append rfl (by decide) _
      rw [argsText_singleton, args?, expr?_text e depth _ he hstops]
      rfl
    | cons e' args =>
      have htext : (argsText (e :: e' :: args)).toList ++ ("\x7d".toList ++ rest)
          = e.text.toList ++ (", ".toList
            ++ ((argsText (e' :: args)).toList ++ ("\x7d".toList ++ rest))) := by
        simp [argsText_cons_cons]
      rw [htext, args?, expr?_text e depth _ he (stops_append rfl (by decide) _)]
      show (args? depth ((argsText (e' :: args)).toList ++ ("\x7d".toList ++ rest))).map _ = _
      rw [args?_text (e' :: args) depth rest hargs]
      rfl

end

mutual

/-- The text of an expression is at least as long as its depth. -/
theorem depth_le_length (e : Expr) : e.depth ≤ e.text.toList.length := by
  cases e with
  | binding position => simp [Expr.depth, Expr.text]
  | literal n =>
    obtain ⟨d, digits, h, -⟩ := head_toString_int n
    rw [Expr.depth, Expr.text, h, List.length_cons]
    omega
  | value source symbol args =>
    have h := argsDepth_le_length args
    simp only [Expr.depth, Expr.text, String.toList_append, List.length_append] at h ⊢
    rw [argsText] at h
    have hopen : "\x7b".toList.length = 1 := rfl
    have hclose : "\x7d)".toList.length = 2 := rfl
    omega

/-- The text of arguments and the closing brace are at least as long as their depth. -/
theorem argsDepth_le_length (args : List Expr) :
    argsDepth args ≤ (argsText args).toList.length + 1 := by
  cases args with
  | nil => simp [argsDepth]
  | cons e args =>
    have he := depth_le_length e
    have hargs := argsDepth_le_length args
    cases args with
    | nil =>
      have hpos : 1 ≤ e.depth := by cases e <;> simp [Expr.depth]
      rw [argsText_singleton, argsDepth, argsDepth]
      omega
    | cons e' args =>
      rw [argsText_cons_cons, String.toList_append, String.toList_append, List.length_append,
        List.length_append, argsDepth]
      have hcomma : ", ".toList.length = 2 := rfl
      omega

end

/-- The text of an expression is read as that expression. -/
theorem readExpr_text (e : Expr) {rest : List Char} (hrest : Stops rest) :
    readExpr (e.text.toList ++ rest) = some (e, rest) := by
  apply expr?_text e _ _ _ hrest
  have h := depth_le_length e
  rw [List.length_append]
  omega

/-- The text of arguments and the closing brace are read as those arguments. -/
theorem readArgs_text (args : List Expr) (rest : List Char) :
    readArgs ((argsText args).toList ++ ("\x7d".toList ++ rest)) = some (args, rest) := by
  apply args?_text
  have h := argsDepth_le_length args
  have hbrace : "\x7d".toList.length = 1 := rfl
  rw [List.length_append, List.length_append]
  omega

end Grounder.Code
