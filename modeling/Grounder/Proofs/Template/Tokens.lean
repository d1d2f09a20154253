import Grounder.Template.Basic
import Mathlib.Algebra.GroupWithZero.Nat

/-!
# `Grounder.Proofs.Template.Tokens`: the grammar of templates

A text is read from left to right. Two dollar signs are a token, and so is a slot, from the dollar
sign and the brace that open it up to the next closing brace. A dollar sign before anything else is
a token of its own, and so is any other character. `tokens` cuts a text in this way, and
`flatMap_source_tokens` says that nothing is lost or added.

Proofs about texts follow the tokens: `tokens_induction` has a case for every kind of token in
front of a text.
-/

set_option autoImplicit false

namespace Grounder.Template

/-- What a text is cut into. -/
inductive Token where
  /-- A character that is no dollar sign. -/
  | char (c : Char)
  /-- A dollar sign before anything else, or at the end. -/
  | dollar
  /-- Two dollar signs. -/
  | escape
  /-- A slot up to the next closing brace. -/
  | slot (name : List Char)
  /-- A slot without a closing brace. The whole rest of the text is in it. -/
  | unclosed (rest : List Char)
  deriving DecidableEq

/-- The characters of a token. -/
def Token.source : Token → List Char
  | .char c => [c]
  | .dollar => ['$']
  | .escape => ['$', '$']
  | .slot name => '$' :: '\x7b' :: (name ++ ['\x7d'])
  | .unclosed rest => '$' :: '\x7b' :: rest

/-- The tokens of a text. -/
def tokens : List Char → List Token
  | [] => []
  | '$' :: '$' :: rest => .escape :: tokens rest
  | '$' :: '\x7b' :: rest =>
    if '\x7d' ∈ rest then
      .slot (rest.takeWhile (· ≠ '\x7d')) :: tokens (rest.dropWhile (· ≠ '\x7d')).tail
    else [.unclosed rest]
  | '$' :: rest => .dollar :: tokens rest
  | c :: rest => .char c :: tokens rest
termination_by cs => cs.length
decreasing_by
  all_goals simp only [List.length_cons]
  · omega
  · have hle := (List.dropWhile_suffix (l := rest) (· ≠ '\x7d')).length_le
    rw [List.length_tail]
    omega
  · omega
  · omega

/-! ### The first token -/

/-- Characters that are no brace stand before the first brace. -/
theorem takeWhile_ne_brace {name : List Char} (h : '\x7d' ∉ name) (rest : List Char) :
    (name ++ '\x7d' :: rest).takeWhile (· ≠ '\x7d') = name ∧
      (name ++ '\x7d' :: rest).dropWhile (· ≠ '\x7d') = '\x7d' :: rest := by
  have hname : ∀ c ∈ name, decide (c ≠ '\x7d') = true := fun c hc =>
    decide_eq_true fun heq => h (heq ▸ hc)
  rw [List.takeWhile_append_of_pos hname, List.dropWhile_append_of_pos hname,
    List.takeWhile_cons_of_neg (by decide), List.dropWhile_cons_of_neg (by decide)]
  exact ⟨List.append_nil name, rfl⟩

theorem tokens_nil : tokens [] = [] := by
  rw [tokens]

theorem tokens_escape (rest : List Char) :
    tokens ('$' :: '$' :: rest) = .escape :: tokens rest := by
  rw [tokens]

theorem tokens_slot {name : List Char} (h : '\x7d' ∉ name) (rest : List Char) :
    tokens ('$' :: '\x7b' :: (name ++ '\x7d' :: rest)) = .slot name :: tokens rest := by
  obtain ⟨htake, hdrop⟩ := takeWhile_ne_brace h rest
  rw [tokens, if_pos (List.mem_append_right name List.mem_cons_self), htake, hdrop, List.tail_cons]

theorem tokens_unclosed {rest : List Char} (h : '\x7d' ∉ rest) :
    tokens ('$' :: '\x7b' :: rest) = [.unclosed rest] := by
  rw [tokens, if_neg h]

theorem tokens_dollar {rest : List Char} (hescape : ∀ behind, rest ≠ '$' :: behind)
    (hslot : ∀ behind, rest ≠ '\x7b' :: behind) :
    tokens ('$' :: rest) = .dollar :: tokens rest := by
  rw [tokens]
  · exact hescape
  · exact hslot

theorem tokens_char {c : Char} (hc : c ≠ '$') (rest : List Char) :
    tokens (c :: rest) = .char c :: tokens rest := by
  rw [tokens]
  · exact fun _ h => absurd h hc
  · exact fun _ h => absurd h hc
  · exact hc

/-- What holds of the empty text, and of a text if it holds of what follows its first token, holds
of all texts. -/
theorem tokens_induction {motive : List Char → Prop} (nil : motive [])
    (escape : ∀ rest, motive rest → motive ('$' :: '$' :: rest))
    (slot : ∀ name rest, '\x7d' ∉ name → motive rest →
      motive ('$' :: '\x7b' :: (name ++ '\x7d' :: rest)))
    (unclosed : ∀ rest, '\x7d' ∉ rest → motive ('$' :: '\x7b' :: rest))
    (dollar : ∀ rest, (∀ behind, rest ≠ '$' :: behind) → (∀ behind, rest ≠ '\x7b' :: behind) →
      motive rest → motive ('$' :: rest))
    (char : ∀ c rest, c ≠ '$' → motive rest → motive (c :: rest)) (cs : List Char) :
    motive cs := by
  induction cs using tokens.induct with
  | case1 => exact nil
  | case2 rest ih => exact escape rest ih
  | case3 rest hmem ih =>
    obtain ⟨name, behind, rfl, hname⟩ := List.eq_append_cons_of_mem hmem
    rw [(takeWhile_ne_brace hname behind).2, List.tail_cons] at ih
    exact slot name behind hname ih
  | case4 rest hmem => exact unclosed rest hmem
  | case5 rest hescape hslot ih => exact dollar rest hescape hslot ih
  | case6 c rest _ _ hc ih => exact char c rest hc ih

/-! ### All tokens -/

/-- The tokens of a text make up the text. -/
theorem flatMap_source_tokens (cs : List Char) : (tokens cs).flatMap Token.source = cs := by
  induction cs using tokens_induction with
  | nil => rw [tokens_nil, List.flatMap_nil]
  | escape rest ih => rw [tokens_escape, List.flatMap_cons, ih]; rfl
  | slot name rest hname ih =>
    rw [tokens_slot hname, List.flatMap_cons, ih]
    simp [Token.source]
  | unclosed rest hrest =>
    rw [tokens_unclosed hrest, List.flatMap_singleton]
    rfl
  | dollar rest hescape hslot ih => rw [tokens_dollar hescape hslot, List.flatMap_cons, ih]; rfl
  | char c rest hc ih => rw [tokens_char hc, List.flatMap_cons, ih]; rfl

/-- Characters other than dollar signs are tokens one by one. -/
theorem tokens_append_chars {cs : List Char} (h : '$' ∉ cs) (rest : List Char) :
    tokens (cs ++ rest) = cs.map .char ++ tokens rest := by
  induction cs with
  | nil => rfl
  | cons c cs ih =>
    rw [List.mem_cons, not_or] at h
    rw [List.cons_append, tokens_char (Ne.symm h.1), ih h.2, List.map_cons, List.cons_append]

end Grounder.Template
