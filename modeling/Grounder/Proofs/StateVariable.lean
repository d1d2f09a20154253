import Grounder.Proofs.Text.Lines
import Grounder.StateVariable
import Mathlib.Data.List.DropRight

/-!
# `Grounder.Proofs.StateVariable`: listing forms that are read back

The listing form `symbol(a,b)` does not quote anything, so it is read back as the same variable only
if the names leave its punctuation and the white space around it alone. `Readable` says so of the
single names. They are also all that a reader can give (`readable_of_parse`), whose grammar is
`parse_eq_ok`. There is one form that two readable variables share: `symbol()` is read without
arguments, and printed for a single empty one as well. `Listable` leaves that one out, and
`parse_text_eq_iff` says that nothing else is lost.
-/

set_option autoImplicit false

namespace Grounder

/-! ### Trimming -/

namespace Text

variable {cs : List Char}

/-- Trimming cuts at the front and then at the back. -/
theorem trimChars_eq_rdropWhile (cs : List Char) :
    trimChars cs = (cs.dropWhile isBlank).rdropWhile isBlank := rfl

/-- Trimming adds no characters. -/
theorem trimChars_subset (cs : List Char) : trimChars cs ⊆ cs :=
  fun _ hc => (List.dropWhile_sublist isBlank).subset ((List.rdropWhile_prefix isBlank _).subset hc)

/-- A text with a character that is not white space is not blank. -/
theorem isBlankText_of_mem {text : String} {c : Char} (hmem : c ∈ text.toList)
    (hc : isBlank c = false) : isBlankText text = false := by
  rw [isBlankText, List.all_eq_false]
  exact ⟨c, hmem, by simp [hc]⟩

/-- Characters that neither begin nor end with white space are not trimmed. -/
theorem trimChars_eq_self (hhead : ∀ c ∈ cs.head?, isBlank c = false)
    (hlast : ∀ c ∈ cs.getLast?, isBlank c = false) : trimChars cs = cs := by
  have hfront : cs.dropWhile isBlank = cs := by
    cases cs with
    | nil => rfl
    | cons c cs => exact List.dropWhile_cons_of_neg (by simp [hhead c rfl])
  rw [trimChars_eq_rdropWhile, hfront, List.rdropWhile_eq_self_iff]
  intro hne
  simp [hlast _ (List.getLast_mem_getLast? hne)]

/-- What is left after trimming does not begin with white space. -/
theorem head_trimChars (cs : List Char) : ∀ c ∈ (trimChars cs).head?, isBlank c = false := by
  intro c hc
  -- What is cut at the back changes the first character only if nothing is left.
  obtain ⟨rest, hprefix⟩ := List.rdropWhile_prefix isBlank (cs.dropWhile isBlank)
  rw [trimChars_eq_rdropWhile] at hc
  have hfirst : (cs.dropWhile isBlank).head? = some c := by
    rw [← hprefix, List.head?_append_of_ne_nil]
    · exact hc
    · intro hnil
      rw [hnil] at hc
      cases hc
  simpa [hfirst] using List.head?_dropWhile_not isBlank cs

/-- What is left after trimming does not end with white space. -/
theorem last_trimChars (cs : List Char) : ∀ c ∈ (trimChars cs).getLast?, isBlank c = false := by
  intro c hc
  have hne : trimChars cs ≠ [] := by
    intro hnil
    rw [hnil] at hc
    cases hc
  have hlast := List.rdropWhile_last_not isBlank (cs.dropWhile isBlank) hne
  rw [List.getLast?_eq_some_getLast hne] at hc
  cases hc
  exact eq_false_of_ne_true hlast

/-- Trimming a second time changes nothing. -/
theorem trimChars_trimChars (cs : List Char) : trimChars (trimChars cs) = trimChars cs :=
  trimChars_eq_self (head_trimChars cs) (last_trimChars cs)

end Text

namespace StateVariable

/-- A variable that a line of a listing can stand for. -/
structure Readable (v : StateVariable) : Prop where
  symbol_ne_empty : v.symbol ≠ ""
  no_opening : '(' ∉ v.symbol.toList
  no_blank_in_front : ∀ c ∈ v.symbol.toList.head?, Text.isBlank c = false
  no_comma : ∀ arg ∈ v.args, ',' ∉ arg.toList
  trimmed : ∀ arg ∈ v.args, Text.trim arg = arg
  no_feed_in_symbol : '\n' ∉ v.symbol.toList
  no_feed_in_args : ∀ arg ∈ v.args, '\n' ∉ arg.toList

/-- A variable whose listing form stands for no other variable. -/
structure Listable (v : StateVariable) : Prop extends Readable v where
  args_ne_single_empty : v.args ≠ [""]

/-- The listing form, character by character. -/
theorem toList_text (v : StateVariable) :
    v.text.toList = v.symbol.toList ++ '(' :: ((",".intercalate v.args).toList ++ [')']) := by
  show (v.symbol ++ "(" ++ ",".intercalate v.args ++ ")").toList = _
  simp only [String.toList_append, List.append_assoc]
  rfl

/-- A listing form ends with the closing parenthesis. -/
theorem getLast?_text (v : StateVariable) : v.text.toList.getLast? = some ')' := by
  rw [toList_text, ← List.cons_append, ← List.append_assoc, List.getLast?_concat]

/-- A listing form is not blank. -/
theorem isBlankText_text (v : StateVariable) : Text.isBlankText v.text = false :=
  Text.isBlankText_of_mem (c := '(') (by simp [toList_text]) (by decide)

/-! ### Reading a listing form -/

/-- A text is read as a variable exactly when, but for the white space around it, a symbol stands in
front of the first opening parenthesis and a closing one at the end. -/
theorem parse_eq_ok {line : String} {v : StateVariable} :
    parse line = .ok v ↔
      ∃ symbol inner, Text.trimChars line.toList = symbol ++ '(' :: (inner ++ [')']) ∧
        '(' ∉ symbol ∧ symbol ≠ [] ∧ v = ⟨String.ofList symbol, argsOf inner⟩ := by
  unfold parse
  generalize Text.trimChars line.toList = cs
  simp only
  constructor
  · intro h
    split at h
    · cases h
    · rename_i opening inside hinside
      split at h
      · cases h
      rename_i hlast
      split at h
      · cases h
      rename_i hne
      cases h
      -- What is dropped in front of the rest is the opening parenthesis.
      have hopening : opening = '(' := by
        have hhead := List.head?_dropWhile_not (· ≠ '(') cs
        rw [hinside] at hhead
        simpa using hhead
      obtain ⟨inner, rfl⟩ := List.getLast?_eq_some_iff.1 (not_not.1 hlast)
      refine ⟨cs.takeWhile (· ≠ '('), inner, ?_, ?_, by simpa using hne, ?_⟩
      · rw [hopening] at hinside
        rw [← hinside, List.takeWhile_append_dropWhile]
      · intro hmem
        simpa using List.mem_takeWhile_imp hmem
      · rw [List.dropLast_concat]
  · rintro ⟨symbol, inner, rfl, hopening, hne, rfl⟩
    have hsymbol : ∀ c ∈ symbol, decide (c ≠ '(') = true :=
      fun c hc => decide_eq_true fun heq => hopening (heq ▸ hc)
    have htake : (symbol ++ '(' :: (inner ++ [')'])).takeWhile (· ≠ '(') = symbol := by
      rw [List.takeWhile_append_of_pos hsymbol, List.takeWhile_cons_of_neg (by decide),
        List.append_nil]
    have hdrop : (symbol ++ '(' :: (inner ++ [')'])).dropWhile (· ≠ '(')
        = '(' :: (inner ++ [')']) := by
      rw [List.dropWhile_append_of_pos hsymbol, List.dropWhile_cons_of_neg (by decide)]
    have hempty : symbol.isEmpty = false := by simpa using hne
    simp only [htake, hdrop, List.getLast?_concat, List.dropLast_concat, hempty]
    rfl

/-- Arguments that are joined by commas are read back, except that a single empty one is lost. -/
theorem argsOf_intercalate {args : List String} (hcomma : ∀ arg ∈ args, ',' ∉ arg.toList)
    (htrim : ∀ arg ∈ args, Text.trim arg = arg) :
    argsOf (",".intercalate args).toList = if args = [""] then [] else args := by
  by_cases hnil : args = []
  · subst hnil
    rfl
  have hjoined : (",".intercalate args).toList = [','].intercalate (args.map String.toList) := by
    rw [String.toList_intercalate]
    rfl
  have hpieces : (",".intercalate args).toList.splitOn ',' = args.map String.toList := by
    rw [hjoined]
    refine List.splitOn_intercalate ',' ?_ (by simpa using hnil)
    intro piece hpiece
    obtain ⟨arg, harg, rfl⟩ := List.mem_map.1 hpiece
    exact hcomma arg harg
  -- Nothing is between the parentheses only for a single empty argument.
  have hempty : (",".intercalate args).toList = [] ↔ args = [""] := by
    constructor
    · intro h
      rw [h, List.splitOn_nil] at hpieces
      cases args with
      | nil => cases hpieces
      | cons arg rest =>
        rw [List.map_cons, List.cons.injEq] at hpieces
        rw [String.toList_eq_nil_iff.1 hpieces.1.symm, List.map_eq_nil_iff.1 hpieces.2.symm]
    · rintro rfl
      rfl
  rw [argsOf]
  by_cases hsingle : args = [""]
  · rw [if_pos (List.isEmpty_iff.2 (hempty.2 hsingle)), if_pos hsingle]
  · rw [if_neg (mt List.isEmpty_iff.1 (mt hempty.1 hsingle)), if_neg hsingle, hpieces,
      List.map_map]
    exact (List.map_congr_left htrim).trans args.map_id

/-- The listing form of a readable variable is read as its symbol and the arguments that the commas
separate. -/
theorem parse_text {v : StateVariable} (h : v.Readable) :
    parse v.text = .ok ⟨v.symbol, if v.args = [""] then [] else v.args⟩ := by
  have htrim : Text.trimChars v.text.toList = v.text.toList := by
    refine Text.trimChars_eq_self ?_ ?_
    · -- The first character is that of the symbol, which is not empty.
      rw [toList_text, List.head?_append_of_ne_nil]
      · exact h.no_blank_in_front
      · exact mt String.toList_eq_nil_iff.1 h.symbol_ne_empty
    · intro c hc
      rw [getLast?_text] at hc
      cases hc
      decide
  refine parse_eq_ok.2 ⟨_, _, htrim.trans v.toList_text, h.no_opening,
    mt String.toList_eq_nil_iff.1 h.symbol_ne_empty, ?_⟩
  rw [argsOf_intercalate h.no_comma h.trimmed, String.ofList_toList]

/-- A readable variable is read back from its listing form exactly if its arguments are not a single
empty one. -/
theorem parse_text_eq_iff {v : StateVariable} (h : v.Readable) :
    parse v.text = .ok v ↔ v.args ≠ [""] := by
  rw [parse_text h]
  constructor
  · intro heq hsingle
    rw [if_pos hsingle] at heq
    have hargs : [] = v.args := congrArg StateVariable.args (Except.ok.inj heq)
    rw [hsingle] at hargs
    cases hargs
  · intro hargs
    rw [if_neg hargs]

/-! ### What can be read -/

/-- What stands between the parentheses is read as trimmed arguments without commas. -/
theorem mem_argsOf {inner : List Char} {arg : String} (h : arg ∈ argsOf inner) :
    ',' ∉ arg.toList ∧ Text.trim arg = arg ∧ arg.toList ⊆ inner := by
  rw [argsOf] at h
  split at h
  · cases h
  · obtain ⟨piece, hpiece, rfl⟩ := List.mem_map.1 h
    have hsub := Text.trimChars_subset piece
    rw [Text.trim, String.toList_ofList, Text.trimChars_trimChars]
    exact ⟨fun hcomma => not_mem_of_mem_splitOn hpiece (hsub hcomma), rfl,
      List.Subset.trans hsub (subset_of_mem_splitOn hpiece)⟩

/-- Whatever is read from a single line is readable. -/
theorem readable_of_parse {line : String} {v : StateVariable} (h : parse line = .ok v)
    (hline : '\n' ∉ line.toList) : v.Readable := by
  obtain ⟨symbol, inner, hcs, hopening, hne, rfl⟩ := parse_eq_ok.1 h
  have hhead := Text.head_trimChars line.toList
  have hsub := Text.trimChars_subset line.toList
  rw [hcs] at hhead hsub
  -- All characters of the names come from the line.
  have hsymbol : '\n' ∉ symbol := fun hmem => hline (hsub (List.mem_append_left _ hmem))
  have hargs : ∀ arg ∈ argsOf inner, '\n' ∉ arg.toList := by
    intro arg harg hmem
    have hinner := (mem_argsOf harg).2.2 hmem
    exact hline (hsub (List.mem_append_right _ (List.mem_cons_of_mem _
      (List.mem_append_left _ hinner))))
  refine ⟨?_, ?_, ?_, fun arg harg => (mem_argsOf harg).1, fun arg harg => (mem_argsOf harg).2.1,
    ?_, hargs⟩
  · simpa [String.ofList_eq_empty_iff] using hne
  · rwa [String.toList_ofList]
  · -- The symbol is not empty, so it begins as the line does.
    rw [String.toList_ofList]
    rwa [List.head?_append_of_ne_nil _ hne] at hhead
  · rwa [String.toList_ofList]

end StateVariable

end Grounder
