import Grounder.Proofs.Template.Parsing
import Mathlib.Algebra.Group.Nat.Even
import Mathlib.Data.List.DropRight

/-!
# `Grounder.Proofs.Template.Concatenation`: templates one after another

A text can be cut between two tokens, and each part is then read as if the other were not there. A
proper text that is followed by another one is cut in this way unless it ends in a dollar sign that
is a token of its own, which would take in what follows. Dollar signs are taken in pairs, so this is
the case exactly if the text ends in an odd number of them (`tokens_append`).

`parse_append_and_doubled` concludes that templates are put together like their texts, and that any
text at all is what some template stands for: the one in which every dollar sign is doubled.
-/

set_option autoImplicit false

namespace Grounder.Template

/-! ### Dollar signs at the end -/

/-- How many dollar signs a text ends in. -/
def trailingDollars (cs : List Char) : Nat := (cs.rtakeWhile (· = '$')).length

/-- Only what follows the last other character counts. -/
theorem trailingDollars_append_cons {c : Char} (hc : c ≠ '$') (front rest : List Char) :
    trailingDollars (front ++ c :: rest) = trailingDollars rest := by
  rw [trailingDollars, trailingDollars, List.rtakeWhile, List.rtakeWhile, List.reverse_append,
    List.reverse_cons, List.append_assoc, List.takeWhile_append]
  split
  · rename_i hall
    rw [List.length_reverse, List.length_reverse, hall, List.singleton_append,
      List.takeWhile_cons_of_neg (by simpa using hc), List.append_nil]
  · rfl

/-- Two dollar signs in front change the number at the end by nothing or by two. -/
theorem trailingDollars_escape (rest : List Char) :
    trailingDollars ('$' :: '$' :: rest) = trailingDollars rest ∨
      trailingDollars ('$' :: '$' :: rest) = trailingDollars rest + 2 := by
  by_cases hall : ∀ c ∈ rest, decide (c = '$') = true
  · right
    rw [trailingDollars, trailingDollars, List.rtakeWhile_eq_self_iff.2 hall,
      List.rtakeWhile_eq_self_iff.2 (by simpa using hall)]
    rfl
  · left
    simp only [not_forall, decide_eq_true_eq] at hall
    obtain ⟨c, hmem, hc⟩ := hall
    obtain ⟨front, behind, rfl⟩ := List.append_of_mem hmem
    rw [← List.cons_append, ← List.cons_append, trailingDollars_append_cons hc,
      trailingDollars_append_cons hc]

/-- A proper text that ends in an even number of dollar signs can be followed by any other. -/
theorem tokens_append {cs : List Char} (hproper : ∀ t ∈ tokens cs, t.IsProper)
    (heven : Even (trailingDollars cs)) (ds : List Char) :
    tokens (cs ++ ds) = tokens cs ++ tokens ds := by
  induction cs using tokens_induction with
  | nil => rw [tokens_nil, List.nil_append, List.nil_append]
  | escape rest ih =>
    rw [tokens_escape, List.forall_mem_cons] at hproper
    have heven' : Even (trailingDollars rest) := by
      rcases trailingDollars_escape rest with h | h
      · rwa [h] at heven
      · rw [h] at heven
        exact (Nat.even_add.1 heven).2 (by decide)
    rw [tokens_escape, List.cons_append, List.cons_append, tokens_escape, ih hproper.2 heven',
      List.cons_append]
  | slot name rest hname ih =>
    rw [tokens_slot hname, List.forall_mem_cons] at hproper
    rw [← List.cons_append, ← List.cons_append, trailingDollars_append_cons (by decide)] at heven
    rw [tokens_slot hname, List.cons_append, List.cons_append, List.append_assoc, List.cons_append,
      tokens_slot hname, ih hproper.2 heven, List.cons_append]
  | unclosed rest hrest =>
    rw [tokens_unclosed hrest, List.forall_mem_singleton] at hproper
    exact hproper.elim
  | dollar rest hescape hslot ih =>
    rw [tokens_dollar hescape hslot, List.forall_mem_cons] at hproper
    cases rest with
    | nil => exact absurd heven (by decide)
    | cons c rest =>
      -- The dollar sign stands before a character that separates it from those at the end.
      have hc : c ≠ '$' := fun h => hescape rest (by rw [h])
      have htrailing : trailingDollars ('$' :: c :: rest) = trailingDollars (c :: rest) :=
        (trailingDollars_append_cons hc ['$'] rest).trans
          (trailingDollars_append_cons hc [] rest).symm
      rw [htrailing] at heven
      rw [tokens_dollar hescape hslot, List.cons_append, tokens_dollar, ih hproper.2 heven,
        List.cons_append]
      · intro behind h
        exact hescape rest (by rw [(List.cons.inj h).1])
      · intro behind h
        exact hslot rest (by rw [(List.cons.inj h).1])
  | char c rest hc ih =>
    rw [tokens_char hc, List.forall_mem_cons] at hproper
    have htrailing : trailingDollars (c :: rest) = trailingDollars rest :=
      trailingDollars_append_cons hc [] rest
    rw [htrailing] at heven
    rw [tokens_char hc, List.cons_append, tokens_char hc, ih hproper.2 heven, List.cons_append]

/-! ### Doubled dollar signs -/

/-- The text with every dollar sign doubled. -/
def doubled (text : String) : String :=
  String.ofList (text.toList.flatMap fun c => if c = '$' then ['$', '$'] else [c])

/-- The token that stands for a character. -/
def tokenOf (c : Char) : Token := if c = '$' then .escape else .char c

/-- With doubled dollar signs, every character is a token. -/
theorem tokens_doubled (text : String) :
    tokens (doubled text).toList = text.toList.map tokenOf := by
  rw [doubled, String.toList_ofList]
  induction text.toList with
  | nil => exact tokens_nil
  | cons c cs ih =>
    rw [List.flatMap_cons, List.map_cons, ← ih]
    by_cases hc : c = '$'
    · subst hc
      exact tokens_escape _
    · rw [if_neg hc, tokenOf, if_neg hc]
      exact tokens_char hc _

/-- The token of a character is proper, and is no slot. -/
theorem isProper_tokenOf (c : Char) : (tokenOf c).IsProper ∧ (tokenOf c).slotName? = none := by
  by_cases hc : c = '$'
  · subst hc
    exact ⟨trivial, rfl⟩
  · rw [tokenOf, if_neg hc]
    exact ⟨trivial, rfl⟩

/-- Every character is what its token stands for. -/
theorem mapM_text_tokenOf (name : String) (bindings : Bindings) (cs : List Char) :
    (cs.map tokenOf).mapM (Token.text name bindings) = .ok (cs.map String.singleton) := by
  rw [List.mapM_map]
  refine Proofs.Support.mapM_eq_map fun c _ => ?_
  by_cases hc : c = '$'
  · subst hc
    rfl
  · rw [Function.comp_apply, tokenOf, if_neg hc, Token.text]

/-! ### Templates -/

/-- A template whose text ends in an even number of dollar signs can be followed by another one.
What follows is a template by itself exactly if both are one together, and then they are filled in
one after the other. Any text is what the template stands for that doubles its dollar signs. -/
theorem parse_append_and_doubled (name : String) :
    (∀ a b s, parse name a = .ok s → Even (trailingDollars a.toList) →
      ((∃ u, parse name (a ++ b) = .ok u) ↔ ∃ t, parse name b = .ok t) ∧
      ∀ t u, parse name b = .ok t → parse name (a ++ b) = .ok u → ∀ bindings,
        u.render bindings = do
          let front ← s.render bindings
          let behind ← t.render bindings
          return front ++ behind) ∧
    ∀ text, ∃ t, parse name (doubled text) = .ok t ∧ t.slots = [] ∧
      ∀ bindings, t.render bindings = .ok text := by
  refine ⟨fun a b s hs heven => ?_, fun text => ?_⟩
  · have hproper := exists_parse_eq_ok.1 ⟨s, hs⟩
    have htokens : tokens (a ++ b).toList = tokens a.toList ++ tokens b.toList := by
      rw [String.toList_append, tokens_append hproper heven]
    refine ⟨?_, fun t u ht hu bindings => ?_⟩
    · rw [exists_parse_eq_ok, exists_parse_eq_ok, htokens, List.forall_mem_append]
      exact and_iff_right hproper
    · rw [render_of_parse hu, render_of_parse hs, render_of_parse ht, htokens, List.mapM_append]
      cases (tokens a.toList).mapM (Token.text name bindings) with
      | error e => rfl
      | ok texts =>
        cases (tokens b.toList).mapM (Token.text name bindings) with
        | error e => rfl
        | ok texts' => exact congrArg Except.ok String.join_append
  · obtain ⟨t, ht⟩ : ∃ t, parse name (doubled text) = .ok t := by
      rw [exists_parse_eq_ok, tokens_doubled, List.forall_mem_map]
      exact fun c _ => (isProper_tokenOf c).1
    refine ⟨t, ht, ?_, fun bindings => ?_⟩
    · have hnone : (text.toList.map tokenOf).filterMap Token.slotName? = [] := by
        rw [List.filterMap_map, List.filterMap_eq_nil_iff]
        exact fun c _ => (isProper_tokenOf c).2
      rw [slots_of_parse ht, tokens_doubled, hnone]
      rfl
    · rw [render_of_parse ht, tokens_doubled, mapM_text_tokenOf]
      show Except.ok (String.join (text.toList.map String.singleton)) = Except.ok text
      rw [join_map_singleton, String.ofList_toList]

/-- A slot and two dollar signs are followed by a name in braces. The brace that begins the second
text opens no slot, since the dollar signs before it are a pair. -/
theorem parse_append_and_doubled_price :
    ∃ u, parse "t" ("$\x7ba\x7d$$" ++ "\x7bb\x7d $\x7bb\x7d") = .ok u ∧
      u.render [("a", "1"), ("b", "$2")] = .ok "1$\x7bb\x7d $2" := by
  have hs : parse "t" "$\x7ba\x7d$$" = .ok ⟨"t", [.slot "a", .literal "$"]⟩ := rfl
  have ht : parse "t" "\x7bb\x7d $\x7bb\x7d" = .ok ⟨"t", [.literal "\x7bb\x7d ", .slot "b"]⟩ := rfl
  obtain ⟨hiff, hrender⟩ := (parse_append_and_doubled "t").1 _ "\x7bb\x7d $\x7bb\x7d" _ hs
    (by decide +kernel)
  obtain ⟨u, hu⟩ := hiff.2 ⟨_, ht⟩
  refine ⟨u, hu, ?_⟩
  rw [hrender _ u ht hu]
  rfl

/-- Behind a single dollar sign, the same text is read otherwise. -/
example : tokens "$\x7bb\x7d".toList ≠ tokens "$".toList ++ tokens "\x7bb\x7d".toList := by
  decide +kernel

end Grounder.Template
