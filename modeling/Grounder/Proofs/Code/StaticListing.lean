import Grounder.Code.Listing
import Grounder.Proofs.GroundModel
import Grounder.Proofs.Text.Decimal
import Grounder.Proofs.Text.Lines

/-!
# `Grounder.Proofs.Code.StaticListing`: reading the facts about static symbols back

The file of a static symbol has a line for each fact about it. A reader who knows the types of the
symbol takes what stands at a numeric type for an integer, and what stands at any other type for the
id of an object (`readFact?`).

The writer does not look at the types. It writes the id of every name that has one. So the reader
gets the fact that was written exactly if no argument at a numeric type has a name that is also an
object's, unless this is the object whose id is that integer (`IsUnmistakable`,
`staticData_read_back`). Where an object has the name of an integer, facts can get lost:
`integer_named_like_object` shows two facts that are written as the same line.
-/

set_option autoImplicit false

namespace Grounder

namespace GroundModel

open Proofs.Support

/-! ### Reading -/

/-- The codes between the parentheses that a line begins with, and what stands behind them. -/
def cutTuple? : List Char → Option (List String × List Char)
  | '(' :: cs =>
    let inner := cs.takeWhile (· ≠ ')')
    match cs.dropWhile (· ≠ ')') with
    | [] => none
    | _ :: behind =>
      some (if inner.isEmpty then [] else (inner.splitOn ' ').map String.ofList, behind)
  | _ => none

/-- What a code stands for at a type: an integer, or the object with that id. -/
def readCode? (m : GroundModel) (type code : String) : Option FactValue :=
  if isNumericType type then (Text.integer? code).map .int
  else ((Text.natural? code.toList).bind m.objects.name?).map .object

/-- What an argument stands for at a type: an integer, or the object of that name. -/
def argumentValue? (type arg : String) : Option FactValue :=
  if isNumericType type then (Text.integer? arg).map .int else some (.object arg)

/-- What texts stand for, each at its type. There have to be as many texts as types. -/
def readAll? (read : String → String → Option FactValue) :
    (types texts : List String) → Option (List FactValue)
  | [], [] => some []
  | type :: types, text :: texts => do
    let value ← read type text
    let values ← readAll? read types texts
    return value :: values
  | _, _ => none

/-- A line as a fact about a symbol: the values of the arguments, and the value that the symbol has
there. A predicate is true there, and nothing follows its tuple. -/
def readFact? (m : GroundModel) (s : Signature) (line : String) :
    Option (List FactValue × FactValue) := do
  let (codes, behind) ← cutTuple? line.toList
  let args ← readAll? m.readCode? s.params codes
  match s.codomain, behind with
  | none, [] => return (args, .bool true)
  | some type, ' ' :: code => do
    let value ← m.readCode? type (String.ofList code)
    return (args, value)
  | _, _ => none

/-- What a fact about a symbol says, with the values of its arguments. -/
def statedFact? (s : Signature) (fact : Tuple × FactValue) : Option (List FactValue × FactValue) :=
  (readAll? argumentValue? s.params fact.1).map fun args => (args, fact.2)

/-- Whether an argument cannot be mistaken for an object. At a numeric type, an integer must not be
named like an object, unless it is the id of this object. -/
def IsUnmistakable (m : GroundModel) (type arg : String) : Prop :=
  isNumericType type = true → ∀ id, m.objects.id? arg = some id →
    Text.integer? arg = Text.word? id

/-! ### Codes -/

/-- What may stand at a type: an integer at a numeric type, and otherwise an object with an id. -/
def StandsAt (m : GroundModel) (type name : String) : Prop :=
  if isNumericType type = true then (Text.integer? name).isSome = true
  else ∃ id, m.objects.id? name = some id

/-- The code of a name: its id if it has one. -/
def codeOf (m : GroundModel) (name : String) : String :=
  ((m.objects.id? name).map toString).getD name

/-- The code of a value that a function has. -/
def valueCodeOf (m : GroundModel) : FactValue → String
  | .object name => m.codeOf name
  | value => value.text

/-- A text that can stand in a line: it is not empty and has only digits and signs. -/
def IsCode (code : String) : Prop := code ≠ "" ∧ ∀ c ∈ code.toList, Text.IsNumeral c

variable {m : GroundModel} {s : Symbol}

/-- The text of a number is a code. -/
theorem isCode_toString (n : Nat) : IsCode (toString n) := by
  refine ⟨?_, Text.isNumeral_toString n⟩
  obtain ⟨d, digits, htext, -⟩ := head_toString n
  intro hempty
  rw [hempty] at htext
  cases htext

/-- Whatever may stand at a type has a code. -/
theorem nameCode_eq (unit : String) {type name : String} (h : m.StandsAt type name) :
    m.nameCode unit name = .ok (m.codeOf name) ∧ IsCode (m.codeOf name) := by
  unfold nameCode codeOf
  cases hid : m.objects.id? name with
  | some id => exact ⟨rfl, isCode_toString id⟩
  | none =>
    have hinteger : (Text.integer? name).isSome = true := by
      unfold StandsAt at h
      split at h
      · exact h
      · obtain ⟨id, hsome⟩ := h
        rw [hid] at hsome
        cases hsome
    show (if _ then _ else _) = _ ∧ _
    rw [if_pos hinteger]
    exact ⟨rfl, Text.isNumeral_of_integer? hinteger⟩

/-- The code of an object is read as that object. -/
theorem readCode?_object {type name : String} (hnumeric : isNumericType type = false)
    (h : ∃ id, m.objects.id? name = some id) :
    m.readCode? type (m.codeOf name) = some (.object name) := by
  obtain ⟨id, hid⟩ := h
  rw [readCode?, hnumeric, codeOf, hid, Option.map_some, Option.getD_some, if_neg (by simp),
    Text.natural?_toString, Option.bind_some, ObjectNumbering.id?_eq_some.1 hid, Option.map_some]

/-- The code of an argument is read as what the argument stands for exactly if the argument cannot
be mistaken. -/
theorem readCode?_codeOf_iff {type arg : String} (h : m.StandsAt type arg) :
    m.readCode? type (m.codeOf arg) = argumentValue? type arg ↔ m.IsUnmistakable type arg := by
  unfold StandsAt at h
  by_cases hnumeric : isNumericType type = true
  · rw [if_pos hnumeric] at h
    rw [readCode?, argumentValue?, if_pos hnumeric, if_pos hnumeric, IsUnmistakable]
    have hinjective : Function.Injective (Option.map FactValue.int) :=
      Option.map_injective fun _ _ heq => FactValue.int.inj heq
    rw [hinjective.eq_iff, codeOf]
    cases hid : m.objects.id? arg with
    | none => simp
    | some id =>
      -- The id is written in place of the integer.
      rw [Option.map_some, Option.getD_some, Text.integer?_toString_nat]
      constructor
      · rintro hread - other hother
        cases hother
        exact hread.symm
      · intro hread
        exact (hread hnumeric id rfl).symm
  · rw [if_neg hnumeric] at h
    rw [readCode?_object (by simpa using hnumeric) h, argumentValue?, if_neg hnumeric]
    exact iff_of_true rfl fun htrue => absurd htrue hnumeric

/-- The codes of arguments are read as what they stand for exactly if none can be mistaken. -/
theorem forall₂_readCode?_iff {types args : List String}
    (h : List.Forall₂ m.StandsAt types args) :
    List.Forall₂ (fun type arg => m.readCode? type (m.codeOf arg) = argumentValue? type arg)
        types args ↔ List.Forall₂ m.IsUnmistakable types args := by
  induction h with
  | nil => exact iff_of_true .nil .nil
  | cons hfirst _ ih => rw [List.forall₂_cons, List.forall₂_cons, ih, readCode?_codeOf_iff hfirst]

/-- Whatever may stand at a type stands for something there. -/
theorem exists_argumentValue? {type arg : String} (h : m.StandsAt type arg) :
    ∃ value, argumentValue? type arg = some value := by
  unfold StandsAt at h
  unfold argumentValue?
  by_cases hnumeric : isNumericType type = true
  · rw [if_pos hnumeric] at h ⊢
    obtain ⟨n, hn⟩ := Option.isSome_iff_exists.1 h
    exact ⟨.int n, by rw [hn]; rfl⟩
  · rw [if_neg hnumeric]
    exact ⟨.object arg, rfl⟩

/-- Texts that all stand for something stand for it together. -/
theorem exists_readAll? {read : String → String → Option FactValue} {types texts : List String}
    (h : List.Forall₂ (fun type text => ∃ value, read type text = some value) types texts) :
    ∃ values, readAll? read types texts = some values := by
  induction h with
  | nil => exact ⟨[], rfl⟩
  | cons hfirst _ ih =>
    obtain ⟨value, hvalue⟩ := hfirst
    obtain ⟨values, hvalues⟩ := ih
    rw [readAll?, hvalue, hvalues]
    exact ⟨value :: values, rfl⟩

/-- Codes are read as what the arguments stand for exactly if each of them is. -/
theorem readAll?_map_eq_iff {read read' : String → String → Option FactValue}
    {code : String → String} {types args : List String}
    (h : List.Forall₂ (fun type arg => ∃ value, read' type arg = some value) types args) :
    readAll? read types (args.map code) = readAll? read' types args ↔
      List.Forall₂ (fun type arg => read type (code arg) = read' type arg) types args := by
  induction h with
  | nil => exact iff_of_true rfl .nil
  | @cons type arg types args hfirst hrest ih =>
    obtain ⟨value, hvalue⟩ := hfirst
    obtain ⟨values, hvalues⟩ := exists_readAll? hrest
    rw [List.map_cons, readAll?, readAll?, List.forall₂_cons, ← ih, hvalue, hvalues]
    cases read type (code arg) <;> cases readAll? read types (args.map code) <;> simp

/-! ### Lines -/

/-- A tuple of codes. -/
def tupleText (codes : List String) : String := "(" ++ " ".intercalate codes ++ ")"

/-- A tuple of codes is cut off in front of whatever follows. -/
theorem cutTuple?_tupleText {codes : List String} (h : ∀ code ∈ codes, IsCode code)
    (behind : List Char) :
    cutTuple? ((tupleText codes).toList ++ behind) = some (codes, behind) := by
  have hchars : ∀ c : Char, ¬ Text.IsNumeral c → ∀ code ∈ codes, c ∉ code.toList := by
    intro c hc code hcode hmem
    exact hc ((h code hcode).2 c hmem)
  have hclosing : ∀ c ∈ (" ".intercalate codes).toList, decide (c ≠ ')') = true := by
    intro c hc
    refine decide_eq_true fun heq => ?_
    refine not_mem_intercalate (by decide) (hchars ')' ?_) (heq ▸ hc)
    simp [Text.IsNumeral]
  have htext : (tupleText codes).toList ++ behind
      = '(' :: ((" ".intercalate codes).toList ++ ')' :: behind) := by
    show ("(" ++ " ".intercalate codes ++ ")").toList ++ behind = _
    simp only [String.toList_append, List.append_assoc]
    rfl
  rw [htext, cutTuple?, List.takeWhile_append_of_pos hclosing,
    List.dropWhile_append_of_pos hclosing, List.takeWhile_cons_of_neg (by decide),
    List.dropWhile_cons_of_neg (by decide), List.append_nil]
  -- No code is empty, so nothing stands between the parentheses only if there are no codes.
  cases codes with
  | nil => rfl
  | cons code codes =>
    have hjoined : (" ".intercalate (code :: codes)).toList
        = [' '].intercalate ((code :: codes).map String.toList) := by
      rw [String.toList_intercalate]
      rfl
    have hpieces : (" ".intercalate (code :: codes)).toList.splitOn ' '
        = (code :: codes).map String.toList := by
      rw [hjoined]
      refine List.splitOn_intercalate ' ' ?_ (by simp)
      intro piece hpiece
      obtain ⟨code, hcode, rfl⟩ := List.mem_map.1 hpiece
      exact hchars ' ' (by simp [Text.IsNumeral]) code hcode
    have hne : (" ".intercalate (code :: codes)).toList.isEmpty = false := by
      rw [Bool.eq_false_iff]
      intro hempty
      rw [List.isEmpty_iff.1 hempty, List.splitOn_nil, List.map_cons, List.cons.injEq] at hpieces
      exact (h code List.mem_cons_self).1 (String.toList_eq_nil_iff.1 hpieces.1.symm)
    simp only [hne, hpieces, List.map_map]
    simp

/-- The line of a fact: the codes of its arguments, and that of its value for a function. -/
def lineOf (m : GroundModel) (s : Signature) (fact : Tuple × FactValue) : String :=
  let tuple := tupleText (fact.1.map m.codeOf)
  if s.isPredicate then tuple else tuple ++ " " ++ m.valueCodeOf fact.2

/-- A fact with a line: its arguments may stand at the types of the parameters, and its value at the
codomain. -/
structure HasLine (m : GroundModel) (s : Signature) (fact : Tuple × FactValue) : Prop where
  args : List.Forall₂ m.StandsAt s.params fact.1
  value : match s.codomain with
    | none => fact.2 = .bool true
    | some type =>
      if isNumericType type = true then ∃ n, fact.2 = .int n
      else ∃ name, fact.2 = .object name ∧ ∃ id, m.objects.id? name = some id

/-- Every argument of a tuple that may stand at types has a code. -/
theorem isCode_of_mem_map_codeOf {types : List String} {tuple : Tuple}
    (h : List.Forall₂ m.StandsAt types tuple) : ∀ code ∈ tuple.map m.codeOf, IsCode code := by
  intro code hcode
  obtain ⟨arg, harg, rfl⟩ := List.mem_map.1 hcode
  obtain ⟨type, -, hstands⟩ := exists_counterpart h harg
  exact (nameCode_eq "" hstands).2

/-- The tuple of a fact with a line. -/
theorem tupleCode_eq (unit : String) {types : List String} {tuple : Tuple}
    (h : List.Forall₂ m.StandsAt types tuple) :
    m.tupleCode unit tuple = .ok (tupleText (tuple.map m.codeOf)) := by
  have hcodes : tuple.mapM (m.nameCode unit) = .ok (tuple.map m.codeOf) := by
    refine mapM_eq_map fun arg harg => ?_
    obtain ⟨type, -, hstands⟩ := exists_counterpart h harg
    exact (nameCode_eq unit hstands).1
  rw [tupleCode, hcodes]
  rfl

/-- The value of a function has a code, which is read as this value. -/
theorem valueCode_eq (unit : String) {fact : Tuple × FactValue} {type : String}
    (h : m.HasLine s.toSignature fact) (htype : s.codomain = some type) :
    m.valueCode unit fact.2 = .ok (m.valueCodeOf fact.2) ∧ IsCode (m.valueCodeOf fact.2) ∧
      m.readCode? type (m.valueCodeOf fact.2) = some fact.2 := by
  have hvalue := h.value
  rw [htype] at hvalue
  by_cases hnumeric : isNumericType type = true
  · simp only [if_pos hnumeric] at hvalue
    obtain ⟨n, hn⟩ := hvalue
    have hread := Text.integer?_toString n
    rw [hn]
    refine ⟨rfl, Text.isNumeral_of_integer? (s := toString n.toInt) (by rw [hread]; rfl), ?_⟩
    show m.readCode? type (toString n.toInt) = _
    rw [readCode?, if_pos hnumeric, hread]
    rfl
  · simp only [if_neg hnumeric] at hvalue
    obtain ⟨name, hname, hid⟩ := hvalue
    have hstands : m.StandsAt type name := by
      rw [StandsAt, if_neg hnumeric]
      exact hid
    obtain ⟨hcode, hisCode⟩ := nameCode_eq unit hstands
    rw [hname]
    exact ⟨hcode, hisCode, readCode?_object (by simpa using hnumeric) hid⟩

/-- A symbol that is not a predicate has a codomain. -/
theorem exists_codomain (h : ¬ s.isPredicate = true) : ∃ type, s.codomain = some type := by
  rw [Signature.isPredicate, Option.isNone_iff_eq_none] at h
  exact Option.ne_none_iff_exists'.1 h

/-- The line of a fact can be written. -/
theorem factLine_eq (unit : String) {fact : Tuple × FactValue} (h : m.HasLine s.toSignature fact) :
    m.factLine unit s.isPredicate fact = .ok (m.lineOf s.toSignature fact) := by
  unfold factLine lineOf
  rw [tupleCode_eq unit h.args]
  by_cases hpredicate : s.isPredicate = true
  · simp only [if_pos hpredicate]
    rfl
  · obtain ⟨type, htype⟩ := exists_codomain hpredicate
    simp only [if_neg hpredicate]
    show (m.valueCode unit fact.2 >>= _) = _
    rw [(valueCode_eq unit h htype).1]
    rfl

/-- A line holds codes, spaces and parentheses, and nothing else. -/
theorem not_mem_lineOf {fact : Tuple × FactValue} (h : m.HasLine s.toSignature fact) {c : Char}
    (hnumeral : ¬ Text.IsNumeral c) (hmark : c ∉ ['(', ')', ' ']) :
    c ∉ (m.lineOf s.toSignature fact).toList := by
  simp only [List.mem_cons, List.not_mem_nil, or_false, not_or] at hmark
  have htuple : c ∉ (tupleText (fact.1.map m.codeOf)).toList := by
    have hjoined : c ∉ (" ".intercalate (fact.1.map m.codeOf)).toList :=
      not_mem_intercalate (by simpa using hmark.2.2) fun code hcode hc =>
        hnumeral ((isCode_of_mem_map_codeOf h.args code hcode).2 c hc)
    simp only [tupleText, String.toList_append, List.mem_append, not_or]
    exact ⟨⟨by simpa using hmark.1, hjoined⟩, by simpa using hmark.2.1⟩
  unfold lineOf
  by_cases hpredicate : s.isPredicate = true
  · simp only [if_pos hpredicate]
    exact htuple
  · obtain ⟨type, htype⟩ := exists_codomain hpredicate
    simp only [if_neg hpredicate, String.toList_append, List.mem_append, not_or]
    exact ⟨⟨htuple, by simpa using hmark.2.2⟩, fun hc =>
      hnumeral ((valueCode_eq "" h htype).2.1.2 c hc)⟩

/-- A line is read as the fact that it was written from exactly if no argument can be mistaken. -/
theorem readFact?_lineOf_iff {fact : Tuple × FactValue} (h : m.HasLine s.toSignature fact) :
    ∃ stated, statedFact? s.toSignature fact = some stated ∧
      (m.readFact? s.toSignature (m.lineOf s.toSignature fact) = some stated ↔
        List.Forall₂ m.IsUnmistakable s.params fact.1) := by
  have hstand : List.Forall₂ (fun type arg => ∃ value, argumentValue? type arg = some value)
      s.params fact.1 := h.args.imp fun _ _ => exists_argumentValue?
  have hcodes := isCode_of_mem_map_codeOf h.args
  obtain ⟨values, hvalues⟩ := exists_readAll? hstand
  refine ⟨(values, fact.2), by rw [statedFact?, hvalues, Option.map_some], ?_⟩
  -- Whatever the arguments are read as, the value behind them is read as itself.
  have hread : m.readFact? s.toSignature (m.lineOf s.toSignature fact)
      = (readAll? m.readCode? s.params (fact.1.map m.codeOf)).map fun args => (args, fact.2) := by
    have hvalue := h.value
    unfold readFact? lineOf
    cases htype : s.codomain with
    | none =>
      rw [htype] at hvalue
      have hpredicate : s.isPredicate = true := by rw [Signature.isPredicate, htype]; rfl
      have hcut := cutTuple?_tupleText hcodes []
      rw [List.append_nil] at hcut
      simp only [if_pos hpredicate, hcut, hvalue]
      cases hargs : readAll? m.readCode? s.params (fact.1.map m.codeOf) <;> simp [hargs]
    | some type =>
      have hpredicate : ¬ s.isPredicate = true := by rw [Signature.isPredicate, htype]; simp
      have hcut := cutTuple?_tupleText hcodes (' ' :: (m.valueCodeOf fact.2).toList)
      have htext : (tupleText (fact.1.map m.codeOf) ++ " " ++ m.valueCodeOf fact.2).toList
          = (tupleText (fact.1.map m.codeOf)).toList ++ ' ' :: (m.valueCodeOf fact.2).toList := by
        simp only [String.toList_append, List.append_assoc]
        rfl
      simp only [if_neg hpredicate, htext, hcut]
      cases hargs : readAll? m.readCode? s.params (fact.1.map m.codeOf) <;>
        simp [hargs, (valueCode_eq "" h htype).2.2]
  rw [hread, ← Option.map_some (f := fun args => (args, fact.2)), ← hvalues,
    (Option.map_injective fun _ _ heq => (Prod.ext_iff.1 heq).1).eq_iff,
    readAll?_map_eq_iff hstand, forall₂_readCode?_iff h.args]

/-- Two tuples that are written alike hold the same values if nothing in them can be mistaken. -/
theorem readAll?_eq_of_tupleCode_eq {unit : String} {types : List String} {tuple tuple' : Tuple}
    (h : List.Forall₂ m.StandsAt types tuple) (h' : List.Forall₂ m.StandsAt types tuple')
    (hplain : List.Forall₂ m.IsUnmistakable types tuple)
    (hplain' : List.Forall₂ m.IsUnmistakable types tuple')
    (heq : m.tupleCode unit tuple = m.tupleCode unit tuple') :
    readAll? argumentValue? types tuple = readAll? argumentValue? types tuple' := by
  have hread : ∀ {tuple : Tuple}, List.Forall₂ m.StandsAt types tuple →
      List.Forall₂ m.IsUnmistakable types tuple →
        readAll? m.readCode? types (tuple.map m.codeOf) = readAll? argumentValue? types tuple := by
    intro tuple hstands hplain
    rw [readAll?_map_eq_iff (hstands.imp fun _ _ => exists_argumentValue?),
      forall₂_readCode?_iff hstands]
    exact hplain
  rw [tupleCode_eq unit h, tupleCode_eq unit h'] at heq
  have hcut := cutTuple?_tupleText (isCode_of_mem_map_codeOf h) []
  -- The codes can be cut out of the tuple again, so they are the same.
  rw [Except.ok.inj heq, cutTuple?_tupleText (isCode_of_mem_map_codeOf h')] at hcut
  have hcodes : tuple'.map m.codeOf = tuple.map m.codeOf :=
    (Prod.ext_iff.1 (Option.some.inj hcut)).1
  rw [← hread h hplain, ← hread h' hplain', hcodes]

/-! ### Files -/

section Files

variable {t : Task} {order : SymbolOrder} {a : Assignment}

/-- Every fact about a static symbol of a grounded task has a line. -/
theorem hasLine_of_factFits (h : build t order = .ok m)
    (hstatic : m.classification.isStatic s.name = true) {fact : Tuple × FactValue}
    (hfits : InitialState.FactFits m.symbols m.classification s fact) :
    m.HasLine s.toSignature fact := by
  constructor
  · refine hfits.args.imp fun type arg harg => ?_
    rw [InitialState.ArgumentFits, Classification.isFluent_of_isStatic hstatic] at harg
    unfold StandsAt
    split at harg
    · rename_i hnumeric
      rw [if_pos hnumeric.1]
      exact harg
    · rename_i hnumeric
      obtain ⟨listing, hlisting, hmem⟩ := harg
      rw [if_neg fun htrue => hnumeric ⟨htrue, rfl⟩]
      exact exists_id?_of_listed h hlisting hmem
  · have hvalue := hfits.value
    unfold InitialState.ValueBelongs at hvalue
    cases htype : s.codomain with
    | none =>
      rw [htype] at hvalue
      exact hvalue
    | some type =>
      rw [htype] at hvalue
      by_cases hnumeric : isNumericType type = true
      · simpa only [if_pos hnumeric] using hvalue
      · simp only [if_neg hnumeric] at hvalue ⊢
        obtain ⟨name, listing, hname, hlisting, hmem⟩ := hvalue
        exact ⟨name, hname, exists_id?_of_listed h hlisting hmem⟩

/-- The file of a static symbol has the lines of its facts. -/
theorem staticData_eq (hkind : a.isRelation = s.isPredicate)
    (hlines : ∀ fact ∈ a.entries, m.HasLine s.toSignature fact) :
    m.staticData s.name a
      = .ok ⟨staticUnitName s.name, Text.unlines (a.entries.map (m.lineOf s.toSignature))⟩ := by
  have hmapM : a.entries.mapM (m.factLine (staticUnitName s.name) a.isRelation)
      = .ok (a.entries.map (m.lineOf s.toSignature)) := by
    rw [hkind]
    exact mapM_eq_map fun fact hfact => factLine_eq _ (hlines fact hfact)
  simp only [staticData, hmapM]
  rfl

/-- The lines of the file are those that were written into it. -/
theorem lines_staticData (hlines : ∀ fact ∈ a.entries, m.HasLine s.toSignature fact) :
    Text.lines (Text.unlines (a.entries.map (m.lineOf s.toSignature)))
      = a.entries.map (m.lineOf s.toSignature) := by
  refine lines_unlines_of_not_mem fun c hc line hline => ?_
  obtain ⟨fact, hfact, rfl⟩ := List.mem_map.1 hline
  rcases hc with rfl | rfl <;>
    exact not_mem_lineOf (hlines fact hfact) (by simp [Text.IsNumeral]) (by decide)

/-- The files of the static symbols of a grounded task are written, one for each extension. -/
theorem exists_staticDataUnits (h : build t order = .ok m) :
    ∃ units, m.staticDataUnits = .ok units ∧
      ∀ s ∈ m.symbols.symbols, m.classification.isStatic s.name = true → ∀ a,
        m.init.get? s.name = some a →
          (∀ fact ∈ a.entries, m.HasLine s.toSignature fact) ∧
          ⟨staticUnitName s.name, Text.unlines (a.entries.map (m.lineOf s.toSignature))⟩
            ∈ units := by
  have hactions := ofActions_of_build h
  have hfile : ∀ s ∈ m.symbols.symbols, m.classification.isStatic s.name = true → ∀ a,
      m.init.get? s.name = some a → (∀ fact ∈ a.entries, m.HasLine s.toSignature fact) ∧
        m.staticData s.name a
          = .ok ⟨staticUnitName s.name, Text.unlines (a.entries.map (m.lineOf s.toSignature))⟩ := by
    intro s hs hstatic a ha
    obtain ⟨a', ha', hkind, hfits⟩ := exists_extension h hs (ne_equality_of_get? h ha)
    obtain rfl : a' = a := Option.some.inj (ha'.symm.trans ha)
    have hlines := fun fact hfact => hasLine_of_factFits h hstatic (hfits fact hfact)
    exact ⟨hlines, staticData_eq hkind hlines⟩
  obtain ⟨units, hunits⟩ : ∃ units, m.staticDataUnits = .ok units := by
    refine exists_mapM_eq_ok fun entry hentry => ?_
    obtain ⟨name, hname, hentry⟩ := List.mem_filterMap.1 hentry
    obtain ⟨a, ha, rfl⟩ := Option.map_eq_some_iff.1 hentry
    have hstatic := (Classification.mem_statics_iff hactions).1 hname
    obtain ⟨s, hs, rfl⟩ := Classification.exists_symbol_of_isStatic hactions hstatic
    exact ⟨_, (hfile s hs hstatic a ha).2⟩
  refine ⟨units, hunits, fun s hs hstatic a ha => ⟨(hfile s hs hstatic a ha).1, ?_⟩⟩
  have hmem : (s.name, a) ∈ m.staticAssignments :=
    List.mem_filterMap.2 ⟨s.name, (Classification.mem_statics_iff hactions).2 hstatic, by
      rw [ha]; rfl⟩
  obtain ⟨unit, hunit, heq⟩ := exists_counterpart (mapM_eq_ok.1 hunits).flip hmem
  have hsame := (hfile s hs hstatic a ha).2.symm.trans heq
  rw [Except.ok.inj hsame]
  exact hunit

/-- Grounding guarantees a file for every static symbol but equality. Its lines are read, in order,
as the facts about the symbol, except for the facts with an argument that can be mistaken. So two
facts that are written with the same tuple have the same arguments, unless one of them can be
mistaken. -/
theorem staticData_read_back (h : build t order = .ok m) (hs : s ∈ m.symbols.symbols)
    (hstatic : m.classification.isStatic s.name = true) (hne : s.name ≠ equality) :
    ∃ units a content, m.staticDataUnits = .ok units ∧ m.init.get? s.name = some a ∧
      ⟨staticUnitName s.name, content⟩ ∈ units ∧
      List.Forall₂ (fun line fact => ∃ stated, statedFact? s.toSignature fact = some stated ∧
        (m.readFact? s.toSignature line = some stated ↔
          List.Forall₂ m.IsUnmistakable s.params fact.1)) (Text.lines content) a.entries ∧
      ∀ fact ∈ a.entries, ∀ fact' ∈ a.entries,
        List.Forall₂ m.IsUnmistakable s.params fact.1 →
        List.Forall₂ m.IsUnmistakable s.params fact'.1 →
        m.tupleCode (staticUnitName s.name) fact.1 = m.tupleCode (staticUnitName s.name) fact'.1 →
          readAll? argumentValue? s.params fact.1 = readAll? argumentValue? s.params fact'.1 := by
  obtain ⟨units, hunits, hfiles⟩ := exists_staticDataUnits h
  obtain ⟨a, ha, -⟩ := exists_extension h hs hne
  obtain ⟨hlines, hmem⟩ := hfiles s hs hstatic a ha
  refine ⟨units, a, _, hunits, ha, hmem, ?_, ?_⟩
  · rw [lines_staticData hlines, List.forall₂_map_left_iff, List.forall₂_same]
    exact fun fact hfact => readFact?_lineOf_iff (hlines fact hfact)
  · intro fact hfact fact' hfact' hplain hplain' heq
    exact readAll?_eq_of_tupleCode_eq (hlines fact hfact).args (hlines fact' hfact').args hplain
      hplain' heq

end Files

/-- Two places, and a road of a certain length that leads from one to the other. -/
def roadTask : Task :=
  ⟨"roads", "one", [⟨"place", ["a", "b"]⟩], ["a", "b"], [], [⟨"length", ["place", "place"], "int"⟩],
    [], [.assign "length" ["a", "b"] "7"], [], none⟩

/-- The lengths of the roads of `roadTask` are read back. -/
theorem staticData_read_back_road :
    ∃ m units content, build roadTask .declaration = .ok m ∧ m.staticDataUnits = .ok units ∧
      ⟨"static/length.data", content⟩ ∈ units ∧
      (Text.lines content).map (m.readFact? ⟨"length", ["place", "place"], some "int"⟩)
        = [some ([.object "a", .object "b"], .int 7)] := by
  obtain ⟨m, hm⟩ : ∃ m, build roadTask .declaration = .ok m := exists_eq_ok (by decide +kernel)
  have hsymbol := feature_eq hm (f := (·.symbols.symbols[0]?))
    (b := some ⟨⟨"length", ["place", "place"], some "int"⟩, 0⟩) (by decide +kernel)
  have hstatic := feature_eq hm (f := (·.classification.isStatic "length")) (b := true)
    (by decide +kernel)
  have hentries := feature_eq hm (f := fun m => (m.init.get? "length").map (·.entries))
    (b := some [(["a", "b"], .int 7)]) (by decide +kernel)
  obtain ⟨units, a, content, hunits, ha, hmem, hlines, -⟩ :=
    staticData_read_back hm (List.mem_of_getElem? hsymbol) hstatic (by decide)
  have ha : m.init.get? "length" = some a := ha
  rw [ha, Option.map_some] at hentries
  rw [Option.some.inj hentries] at hlines
  refine ⟨m, units, content, hm, hunits, hmem, ?_⟩
  -- There is one line, and its fact has no argument at a numeric type.
  generalize Text.lines content = lines at hlines
  obtain ⟨line, rest, ⟨stated, hstated, hread⟩, hrest, rfl⟩ := List.forall₂_cons_right_iff.1 hlines
  rw [List.forall₂_nil_right_iff.1 hrest, List.map_singleton]
  have hplain : ∀ name, m.IsUnmistakable "place" name :=
    fun _ hnumeric => absurd hnumeric (by decide)
  rw [hread.2 (.cons (hplain "a") (.cons (hplain "b") .nil)), ← hstated]
  decide +kernel

/-- Two levels, and an object with the name of one of them. -/
def levelTask : Task :=
  ⟨"levels", "one", [], ["5"], [⟨"level", ["int"]⟩], [], [],
    [.atom "level" ["2"] false, .atom "level" ["5"] false], [], none⟩

/-- An integer can be mistaken for an object: the levels `2` and `5` of `levelTask` are both written
as `2`, which is the id of the object `5`. -/
theorem integer_named_like_object :
    ∃ m a, build levelTask .declaration = .ok m ∧ m.classification.isStatic "level" = true ∧
      m.init.get? "level" = some a ∧ a.entries = [(["2"], .bool true), (["5"], .bool true)] ∧
      m.staticDataUnits = .ok [⟨"static/level.data", "(2)\n(2)\n"⟩] ∧
      m.readFact? ⟨"level", ["int"], none⟩ "(2)" = some ([.int 2], .bool true) ∧
      statedFact? ⟨"level", ["int"], none⟩ (["5"], .bool true) = some ([.int 5], .bool true) := by
  obtain ⟨m, hm⟩ : ∃ m, build levelTask .declaration = .ok m := exists_eq_ok (by decide +kernel)
  refine ⟨m, .relation [["2"], ["5"]], hm, ?_, ?_, rfl, ?_, ?_, by decide +kernel⟩
  · exact feature_eq hm (f := (·.classification.isStatic "level")) (by decide +kernel)
  · exact feature_eq hm (f := (·.init.get? "level")) (by decide +kernel)
  · obtain ⟨units, hunits, -⟩ := exists_staticDataUnits hm
    have hfiles := feature_eq hm (f := (·.staticDataUnits.toOption))
      (b := some [⟨"static/level.data", "(2)\n(2)\n"⟩]) (by decide +kernel)
    rw [hunits] at hfiles
    exact hunits.trans (congrArg Except.ok (Option.some.inj hfiles))
  · exact feature_eq hm (f := (·.readFact? ⟨"level", ["int"], none⟩ "(2)")) (by decide +kernel)

end GroundModel

end Grounder
