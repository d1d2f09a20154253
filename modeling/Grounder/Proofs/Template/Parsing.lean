import Grounder.Proofs.Support.Except
import Grounder.Proofs.Template.Tokens
import Mathlib.Data.List.Chain

/-!
# `Grounder.Proofs.Template.Parsing`: templates are read token by token

The reader of templates knows no tokens. It carries the text since the last slot along, and finds
out where a slot opens from the bytes that are left. `scan_eq` says that all the same it adds token
after token to a draft of the template (`Draft.add`), until one of them is not proper.

What a draft has is told by its tokens, one by one: what it is filled in as (`render_add`), the
names of its slots (`slotNames_foldl_add`), and that it has neither an empty literal nor two
literals side by side (`Draft.IsCompact.add`). So the same is true of a whole template, and
`parse_iff_proper` collects what this says about a text and the template that it writes, or the
fault that is found in it.
-/

set_option autoImplicit false

namespace Grounder.Template

open Proofs.Support

/-! ### Proper tokens -/

/-- The characters that can occur in the name of a slot. -/
def IsNameChar (c : Char) : Prop :=
  'a' ≤ c ∧ c ≤ 'z' ∨ 'A' ≤ c ∧ c ≤ 'Z' ∨ '0' ≤ c ∧ c ≤ '9' ∨ c = '_'

/-- The names that a slot can have. -/
def IsName (name : List Char) : Prop := name ≠ [] ∧ ∀ c ∈ name, IsNameChar c

/-- A slot has a closing brace and a name that it can have. All other tokens are proper anyway. -/
def Token.IsProper : Token → Prop
  | .slot name => IsName name
  | .unclosed _ => False
  | _ => True

/-- The reader checks the names of slots. -/
theorem isSlotName_iff {name : List Char} : isSlotName name = true ↔ IsName name := by
  have hchar (c : Char) : isSlotChar c = true ↔ IsNameChar c := by
    show (decide ('A' ≤ c ∧ c ≤ 'Z') || decide ('a' ≤ c) && decide (c ≤ 'z')
      || decide ('0' ≤ c) && decide (c ≤ '9') || c == '_') = true ↔ IsNameChar c
    simp only [Bool.or_eq_true, Bool.and_eq_true, decide_eq_true_eq, beq_iff_eq]
    rw [or_assoc, or_assoc, or_left_comm, IsNameChar]
  simp only [isSlotName, IsName, Bool.and_eq_true, Bool.not_eq_true', List.isEmpty_eq_false_iff,
    List.all_eq_true, hchar]

/-- What is wrong with a token that begins at the byte `offset`. -/
def Token.fault? (offset : Nat) : Token → Option TemplateFault
  | .slot name => if isSlotName name then none else some (.invalidSlot (String.ofList name))
  | .unclosed _ => some (.unclosedSlot offset)
  | _ => none

/-- The bytes of some characters. -/
def byteCount (cs : List Char) : Nat := (String.ofList cs).utf8ByteSize

theorem byteCount_append (cs ds : List Char) :
    byteCount (cs ++ ds) = byteCount cs + byteCount ds := by
  simp [byteCount]

/-- The first fault of tokens that begin at the byte `offset`. -/
def firstFault? : Nat → List Token → Option TemplateFault
  | _, [] => none
  | offset, t :: ts => (t.fault? offset).or (firstFault? (offset + byteCount t.source) ts)

/-- A token has no fault exactly if it is proper. -/
theorem fault?_eq_none {t : Token} {offset : Nat} : t.fault? offset = none ↔ t.IsProper := by
  cases t with
  | slot name =>
    rw [Token.fault?, Token.IsProper, ← isSlotName_iff]
    split <;> simp_all
  | unclosed rest => simp [Token.fault?, Token.IsProper]
  | char | dollar | escape => simp [Token.fault?, Token.IsProper]

/-- Tokens have no fault exactly if all of them are proper. -/
theorem firstFault?_eq_none {ts : List Token} (offset : Nat) :
    firstFault? offset ts = none ↔ ∀ t ∈ ts, t.IsProper := by
  induction ts generalizing offset with
  | nil => simp [firstFault?]
  | cons t ts ih =>
    rw [firstFault?, Option.or_eq_none_iff, fault?_eq_none, ih, List.forall_mem_cons]

/-- The first fault is that of the first token that is not proper, at the byte where it begins. -/
theorem firstFault?_append {before : List Token} (h : ∀ t ∈ before, t.IsProper) (t : Token)
    (after : List Token) (offset : Nat) :
    firstFault? offset (before ++ t :: after)
      = (t.fault? (offset + byteCount (before.flatMap Token.source))).or
          (firstFault? (offset + byteCount (before.flatMap Token.source) + byteCount t.source)
            after) := by
  induction before generalizing offset with
  | nil => rfl
  | cons first before ih =>
    rw [List.forall_mem_cons] at h
    rw [List.cons_append, firstFault?, fault?_eq_none.2 h.1, Option.none_or, ih h.2,
      List.flatMap_cons, byteCount_append, Nat.add_assoc offset]

/-! ### Drafts -/

/-- What has been read of a template: the segments up to the last slot, and the text after it, last
character first. -/
structure Draft where
  segments : List TemplateSegment
  literal : List Char

namespace Draft

/-- The segments of a template that is no longer than the draft. -/
def finish (d : Draft) : List TemplateSegment := addLiteral d.segments d.literal

/-- The draft with one more token. -/
def add (d : Draft) : Token → Draft
  | .char c => ⟨d.segments, c :: d.literal⟩
  | .dollar | .escape => ⟨d.segments, '$' :: d.literal⟩
  | .slot name => ⟨d.finish ++ [.slot (String.ofList name)], []⟩
  | .unclosed _ => d

end Draft

/-! ### Scanning -/

/-- Inside a slot, characters other than the closing brace belong to the name. -/
theorem scanSlot_append (size offset : Nat) (segments : List TemplateSegment)
    {name : List Char} (h : '\x7d' ∉ name) (seen rest : List Char) :
    scanSlot size offset segments seen (name ++ rest)
      = scanSlot size offset segments (name.reverse ++ seen) rest := by
  induction name generalizing seen with
  | nil => rfl
  | cons c name ih =>
    rw [List.mem_cons, not_or] at h
    rw [List.cons_append, scanSlot, ih h.2, List.reverse_cons, List.append_assoc,
      List.singleton_append]
    exact fun heq => h.1 heq.symm

theorem scan_slot (size : Nat) (segments : List TemplateSegment) (literal : List Char)
    {name : List Char} (h : '\x7d' ∉ name) (rest : List Char) :
    scan size segments literal ('$' :: '\x7b' :: (name ++ '\x7d' :: rest)) =
      if isSlotName name then
        scan size (addLiteral segments literal ++ [.slot (String.ofList name)]) [] rest
      else .error (.invalidSlot (String.ofList name)) := by
  rw [scan, scanSlot_append _ _ _ h, List.append_nil, scanSlot, List.reverse_reverse]

theorem scan_unclosed (size : Nat) (segments : List TemplateSegment) (literal : List Char)
    {rest : List Char} (h : '\x7d' ∉ rest) :
    scan size segments literal ('$' :: '\x7b' :: rest)
      = .error (.unclosedSlot (size - byteCount ('$' :: '\x7b' :: rest))) := by
  have happend := scanSlot_append size (size - byteCount ('$' :: '\x7b' :: rest))
    (addLiteral segments literal) h [] []
  rw [List.append_nil] at happend
  rw [scan]
  exact happend.trans (scanSlot.eq_1 ..)

theorem scan_dollar (size : Nat) (segments : List TemplateSegment) (literal : List Char)
    {rest : List Char} (hescape : ∀ behind, rest ≠ '$' :: behind)
    (hslot : ∀ behind, rest ≠ '\x7b' :: behind) :
    scan size segments literal ('$' :: rest) = scan size segments ('$' :: literal) rest := by
  rw [scan]
  · exact fun behind _ => hescape behind
  · exact fun behind _ => hslot behind

theorem scan_char (size : Nat) (segments : List TemplateSegment) (literal : List Char) {c : Char}
    (hc : c ≠ '$') (rest : List Char) :
    scan size segments literal (c :: rest) = scan size segments (c :: literal) rest := by
  rw [scan]
  · exact fun _ h => absurd h hc
  · exact fun _ h => absurd h hc

/-- The reader adds the tokens of the characters that are left to the draft that it has, or stops at
the first fault. -/
theorem scan_eq {size offset : Nat} (d : Draft) (cs : List Char)
    (hsize : offset + byteCount cs = size) :
    scan size d.segments d.literal cs =
      match firstFault? offset (tokens cs) with
      | some fault => .error fault
      | none => .ok ((tokens cs).foldl Draft.add d).finish := by
  -- Behind a token, fewer bytes are left by as many as the token has.
  have hbehind : ∀ (offset : Nat) (t : Token) (rest : List Char),
      offset + byteCount (t.source ++ rest) = size →
      offset + byteCount t.source + byteCount rest = size := by
    intro offset t rest h
    rw [← h, byteCount_append, Nat.add_assoc]
  induction cs using tokens_induction generalizing d offset with
  | nil =>
    rw [tokens_nil, scan]
    rfl
  | escape rest ih =>
    rw [tokens_escape, scan]
    exact ih (d.add .escape) (hbehind offset .escape rest hsize)
  | slot name rest hname ih =>
    rw [tokens_slot hname, scan_slot _ _ _ hname, firstFault?, Token.fault?]
    by_cases hvalid : isSlotName name = true
    · rw [if_pos hvalid, if_pos hvalid]
      refine ih (d.add (.slot name)) (hbehind offset (.slot name) rest ?_)
      simpa [Token.source] using hsize
    · rw [if_neg hvalid, if_neg hvalid]
      rfl
  | unclosed rest hrest =>
    rw [tokens_unclosed hrest, scan_unclosed _ _ _ hrest, ← hsize, Nat.add_sub_cancel]
    rfl
  | dollar rest hescape hslot ih =>
    rw [tokens_dollar hescape hslot, scan_dollar _ _ _ hescape hslot]
    exact ih (d.add .dollar) (hbehind offset .dollar rest hsize)
  | char c rest hc ih =>
    rw [tokens_char hc, scan_char _ _ _ hc]
    exact ih (d.add (.char c)) (hbehind offset (.char c) rest hsize)

/-- A text is read as a template exactly if no token of it has a fault. -/
theorem parse_eq (name source : String) :
    parse name source =
      match firstFault? 0 (tokens source.toList) with
      | some fault => .error (.malformedTemplate name fault)
      | none => .ok ⟨name, ((tokens source.toList).foldl Draft.add ⟨[], []⟩).finish⟩ := by
  have hsize : 0 + byteCount source.toList = source.utf8ByteSize := by
    rw [Nat.zero_add, byteCount, String.ofList_toList]
  have hscan := scan_eq ⟨[], []⟩ source.toList hsize
  rw [parse, hscan]
  cases firstFault? 0 (tokens source.toList) <;> rfl

/-- A text is a template exactly if its tokens are proper. -/
theorem exists_parse_eq_ok {name source : String} :
    (∃ t, parse name source = .ok t) ↔ ∀ token ∈ tokens source.toList, token.IsProper := by
  rw [parse_eq, ← firstFault?_eq_none 0]
  cases firstFault? 0 (tokens source.toList) <;> simp

/-! ### What a draft is filled in as -/

/-- What a token becomes. -/
def Token.text (template : String) (bindings : Bindings) : Token → Except CompileError String
  | .char c => .ok (String.singleton c)
  | .dollar | .escape => .ok "$"
  | .slot name => segmentText template bindings (.slot (String.ofList name))
  | .unclosed _ => .ok ""

variable {name source : String} {bindings : Bindings}

/-- Characters make up the text that has them, one by one. -/
theorem join_map_singleton (cs : List Char) :
    String.join (cs.map String.singleton) = String.ofList cs := by
  apply String.toList_injective
  rw [String.toList_join, String.toList_ofList, List.flatMap_map]
  simp

/-- Filling in segments of which another one is the last. -/
theorem render_concat (segments : List TemplateSegment) (segment : TemplateSegment) :
    render ⟨name, segments ++ [segment]⟩ bindings = do
      let front ← render ⟨name, segments⟩ bindings
      let text ← segmentText name bindings segment
      return front ++ text := by
  rw [render, render, List.mapM_append]
  cases segments.mapM (segmentText name bindings) with
  | error e => rfl
  | ok texts =>
    rw [List.mapM_cons]
    cases segmentText name bindings segment with
    | error e => rfl
    | ok text =>
      show Except.ok (String.join (texts ++ [text])) = Except.ok (String.join texts ++ text)
      rw [String.join_append]
      simp

/-- A literal is filled in as it stands, also where it is left out. -/
theorem render_addLiteral (segments : List TemplateSegment) (literal : List Char) :
    render ⟨name, addLiteral segments literal⟩ bindings
      = (render ⟨name, segments⟩ bindings).map (· ++ String.ofList literal.reverse) := by
  rw [addLiteral]
  cases literal with
  | nil =>
    cases h : render ⟨name, segments⟩ bindings <;> simp [h, Except.map]
  | cons c literal =>
    rw [if_neg (by simp), render_concat]
    cases render ⟨name, segments⟩ bindings <;> rfl

/-- One more token is filled in behind what a draft has. -/
theorem render_add (d : Draft) (t : Token) :
    render ⟨name, (d.add t).finish⟩ bindings = do
      let front ← render ⟨name, d.finish⟩ bindings
      let text ← t.text name bindings
      return front ++ text := by
  -- A character makes the literal of the draft longer.
  have hchar (c : Char) : render ⟨name, addLiteral d.segments (c :: d.literal)⟩ bindings = do
      let front ← render ⟨name, d.finish⟩ bindings
      return front ++ String.singleton c := by
    rw [Draft.finish, render_addLiteral, render_addLiteral, List.reverse_cons]
    cases render ⟨name, d.segments⟩ bindings with
    | error e => rfl
    | ok front =>
      show Except.ok (front ++ String.ofList (d.literal.reverse ++ [c])) = Except.ok (_ ++ _)
      rw [String.ofList_append, String.append_assoc]
      rfl
  cases t with
  | char c => exact hchar c
  | dollar => exact hchar '$'
  | escape => exact hchar '$'
  | slot slot => exact render_concat ..
  | unclosed rest =>
    show render ⟨name, d.finish⟩ bindings = _
    cases render ⟨name, d.finish⟩ bindings with
    | error e => rfl
    | ok front => simp [Token.text, bind, Except.bind, pure, Except.pure]

/-- Tokens are filled in one after another. -/
theorem render_foldl_add (ts : List Token) (d : Draft) :
    render ⟨name, (ts.foldl Draft.add d).finish⟩ bindings = do
      let front ← render ⟨name, d.finish⟩ bindings
      let texts ← ts.mapM (Token.text name bindings)
      return front ++ String.join texts := by
  induction ts generalizing d with
  | nil =>
    show render ⟨name, d.finish⟩ bindings = _
    cases render ⟨name, d.finish⟩ bindings with
    | error e => rfl
    | ok front => simp [bind, Except.bind, pure, Except.pure]
  | cons t ts ih =>
    rw [List.foldl_cons, ih, render_add, List.mapM_cons]
    cases render ⟨name, d.finish⟩ bindings with
    | error e => rfl
    | ok front =>
      cases t.text name bindings with
      | error e => rfl
      | ok text =>
        cases ts.mapM (Token.text name bindings) with
        | error e => rfl
        | ok texts =>
          simp [bind, Except.bind, pure, Except.pure, String.append_assoc]

/-- A template is filled in as the tokens of its text. -/
theorem render_of_parse {t : Template} (h : parse name source = .ok t) (bindings : Bindings) :
    t.render bindings
      = ((tokens source.toList).mapM (Token.text name bindings)).map String.join := by
  rw [parse_eq] at h
  split at h
  · cases h
  · cases h
    rw [render_foldl_add]
    show (do
      let texts ← (tokens source.toList).mapM (Token.text name bindings)
      return "" ++ String.join texts) = _
    cases (tokens source.toList).mapM (Token.text name bindings) <;>
      simp [bind, Except.bind, pure, Except.pure, Except.map]

/-! ### What a draft consists of -/

/-- The slot that a token is. -/
def Token.slotName? : Token → Option String
  | .slot name => some (String.ofList name)
  | _ => none

/-- Segments without empty literals, and without literals side by side. -/
structure IsCompact (segments : List TemplateSegment) : Prop where
  filled : .literal "" ∉ segments
  apart : segments.IsChain fun first second =>
    ∀ text text', ¬ (first = .literal text ∧ second = .literal text')

/-- A literal that is added changes no slots. -/
theorem slotNames_addLiteral (segments : List TemplateSegment) (literal : List Char) :
    (addLiteral segments literal).filterMap slotName? = segments.filterMap slotName? := by
  rw [addLiteral]
  split
  · rfl
  · simp [slotName?]

/-- Tokens bring their slots into a draft, in order. -/
theorem slotNames_foldl_add (ts : List Token) (d : Draft) :
    (ts.foldl Draft.add d).finish.filterMap slotName?
      = d.finish.filterMap slotName? ++ ts.filterMap Token.slotName? := by
  induction ts generalizing d with
  | nil => simp
  | cons t ts ih =>
    rw [List.foldl_cons, ih, Draft.finish, Draft.finish, slotNames_addLiteral,
      slotNames_addLiteral]
    cases t with
    | slot slot => simp [Draft.add, Draft.finish, slotNames_addLiteral, slotName?, Token.slotName?]
    | char | dollar | escape | unclosed => rfl

/-- The slots of a template are those of its text, in the order in which they first appear. -/
theorem slots_of_parse {t : Template} (h : parse name source = .ok t) :
    t.slots = ((tokens source.toList).filterMap Token.slotName?).eraseDups := by
  rw [parse_eq] at h
  split at h <;> cases h
  rw [slots, slotNames_foldl_add]
  rfl

/-- Segments that are compact stay so when something is added that is no second literal. -/
theorem IsCompact.concat {segments : List TemplateSegment} {segment : TemplateSegment}
    (h : IsCompact segments) (hfilled : segment ≠ .literal "")
    (hapart : ∀ last ∈ segments.getLast?, ∀ text text',
      ¬ (last = .literal text ∧ segment = .literal text')) :
    IsCompact (segments ++ [segment]) := by
  refine ⟨?_, ?_⟩
  · rw [List.mem_append, List.mem_singleton, not_or]
    exact ⟨h.filled, hfilled.symm⟩
  · rw [List.isChain_append]
    refine ⟨h.apart, .singleton segment, fun last hlast first hfirst => ?_⟩
    rw [List.head?_singleton, Option.mem_some_iff] at hfirst
    exact hfirst ▸ hapart last hlast

/-- The segments of a draft are compact and do not end in a literal. -/
structure Draft.IsCompact (d : Draft) : Prop where
  segments : Template.IsCompact d.segments
  last : ∀ text, d.segments.getLast? ≠ some (.literal text)

/-- A draft leaves compact segments. -/
theorem Draft.IsCompact.finish {d : Draft} (h : d.IsCompact) : Template.IsCompact d.finish := by
  rw [Draft.finish, addLiteral]
  split
  · exact h.segments
  · rename_i hne
    refine h.segments.concat ?_ ?_
    · simpa using hne
    · rintro last hlast text text' ⟨rfl, -⟩
      exact h.last text hlast

/-- One more token keeps a draft compact. -/
theorem Draft.IsCompact.add {d : Draft} (h : d.IsCompact) (t : Token) : (d.add t).IsCompact := by
  cases t with
  | char | dollar | escape | unclosed => exact ⟨h.segments, h.last⟩
  | slot name =>
    refine ⟨h.finish.concat (by simp) ?_, ?_⟩
    · simp
    · simp [Draft.add]

/-- Tokens leave a draft compact. -/
theorem Draft.IsCompact.foldl_add {d : Draft} (h : d.IsCompact) (ts : List Token) :
    (ts.foldl Draft.add d).IsCompact := by
  induction ts generalizing d with
  | nil => exact h
  | cons t ts ih => exact ih (h.add t)

/-! ### Templates and their texts -/

/-- What a token stands for if every slot has a value. -/
def Token.replacement (value : String → String) : Token → String
  | .char c => String.singleton c
  | .dollar | .escape => "$"
  | .slot name => value (String.ofList name)
  | .unclosed _ => ""

/-- Tokens with values for their slots are filled in as what they stand for. -/
theorem mapM_text_eq_ok {ts : List Token} {value : String → String}
    (h : ∀ slot, Token.slot slot ∈ ts →
      bindings.lookup (String.ofList slot) = some (value (String.ofList slot))) :
    ts.mapM (Token.text name bindings) = .ok (ts.map (Token.replacement value)) := by
  refine mapM_eq_map fun t ht => ?_
  cases t with
  | slot slot => rw [Token.text, segmentText, h slot ht, Token.replacement]
  | char | dollar | escape | unclosed => rfl

/-- A text is a template exactly if its tokens are proper. Else the first one that is not is
reported: a slot without a closing brace by the byte at which it opens, any other by its name. The
template is filled in as what the tokens stand for, one after another, and its segments are
compact. -/
theorem parse_iff_proper (name source : String) :
    (tokens source.toList).flatMap Token.source = source.toList ∧
    ((∃ t, parse name source = .ok t) ↔ ∀ token ∈ tokens source.toList, token.IsProper) ∧
    (∀ before rest after, tokens source.toList = before ++ .unclosed rest :: after →
      (∀ token ∈ before, token.IsProper) →
      parse name source = .error (.malformedTemplate name
        (.unclosedSlot (String.ofList (before.flatMap Token.source)).utf8ByteSize))) ∧
    (∀ before slot after, tokens source.toList = before ++ .slot slot :: after →
      (∀ token ∈ before, token.IsProper) → ¬ IsName slot →
      parse name source = .error (.malformedTemplate name (.invalidSlot (String.ofList slot)))) ∧
    ∀ t, parse name source = .ok t →
      t.name = name ∧
      (∀ value bindings, (∀ slot, .slot slot ∈ tokens source.toList →
        bindings.lookup (String.ofList slot) = some (value (String.ofList slot))) →
        t.render bindings
          = .ok (String.join ((tokens source.toList).map (Token.replacement value)))) ∧
      IsCompact t.segments := by
  refine ⟨flatMap_source_tokens _, exists_parse_eq_ok, fun before rest after htokens hbefore => ?_,
    fun before slot after htokens hbefore hslot => ?_,
    fun t ht => ⟨?_, fun value bindings h => ?_, ?_⟩⟩
  · rw [parse_eq, htokens, firstFault?_append hbefore, Token.fault?, Option.some_or, Nat.zero_add]
    rfl
  · rw [parse_eq, htokens, firstFault?_append hbefore, Token.fault?,
      if_neg (mt isSlotName_iff.1 hslot), Option.some_or]
  · rw [parse_eq] at ht
    split at ht <;> cases ht
    rfl
  · rw [render_of_parse ht, mapM_text_eq_ok h]
    rfl
  · rw [parse_eq] at ht
    split at ht <;> cases ht
    have hempty : Draft.IsCompact ⟨[], []⟩ := ⟨⟨List.not_mem_nil, .nil⟩, by simp⟩
    exact (hempty.foldl_add _).finish

/-- A price with an escaped dollar sign and a slot is a template. One whose slot is left open is
not, and its fault is at the fifth byte, since the sign of the currency takes three. -/
theorem parse_iff_proper_price :
    (∃ t, parse "price" "$$5 per $\x7bunit\x7d" = .ok t ∧ IsCompact t.segments ∧
      t.render [("unit", "kg")] = .ok "$5 per kg") ∧
    parse "price" "€5 $\x7bunit" = .error (.malformedTemplate "price" (.unclosedSlot 5)) := by
  have htokens : tokens "$$5 per $\x7bunit\x7d".toList
      = .escape :: "5 per ".toList.map .char ++ [.slot ['u', 'n', 'i', 't']] := by decide +kernel
  have htokens' : tokens "€5 $\x7bunit".toList
      = "€5 ".toList.map .char ++ .unclosed ['u', 'n', 'i', 't'] :: [] := by decide +kernel
  obtain ⟨-, hok, -, -, hfilled⟩ := parse_iff_proper "price" "$$5 per $\x7bunit\x7d"
  obtain ⟨-, -, hunclosed, -, -⟩ := parse_iff_proper "price" "€5 $\x7bunit"
  rw [htokens] at hok hfilled
  have hname : IsName ['u', 'n', 'i', 't'] := isSlotName_iff.1 (by decide)
  obtain ⟨t, ht⟩ := hok.2 (by simp [Token.IsProper, hname])
  obtain ⟨-, hrender, hcompact⟩ := hfilled t ht
  refine ⟨⟨t, ht, hcompact, ?_⟩, ?_⟩
  · rw [hrender (fun _ => "kg") [("unit", "kg")] (by simp)]
    rfl
  · exact hunclosed _ _ [] htokens' (by simp [Token.IsProper])

end Grounder.Template
