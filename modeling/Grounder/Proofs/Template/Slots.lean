import Grounder.Proofs.Support.Lists
import Grounder.Proofs.Template.Parsing

/-!
# `Grounder.Proofs.Template.Slots`: what a template asks for

The slots that a template lists are all that it depends on. `render_of_slots` puts what it is filled
in as into one equation: the first listed slot without a text is missing, and if there is none, each
token of the text is replaced by what it stands for. `render_iff_slots_bound` concludes what a
template needs, what it ignores, and that the texts for slots come out as they are.
-/

set_option autoImplicit false

namespace Grounder.Template

open Proofs.Support

variable {name source : String} {t : Template} {bindings : Bindings}

/-- The text for a slot. -/
def valueOf (bindings : Bindings) (slot : String) : String := (bindings.lookup slot).getD ""

/-- Whether there is a text for a slot. -/
def isBound (bindings : Bindings) (slot : String) : Bool := (bindings.lookup slot).isSome

/-- A slot with a text stands for this text. -/
theorem lookup_of_isBound {slot : String} (h : isBound bindings slot = true) :
    bindings.lookup slot = some (valueOf bindings slot) := by
  obtain ⟨value, hvalue⟩ := Option.isSome_iff_exists.1 h
  rw [valueOf, hvalue, Option.getD_some]

/-- The name of a slot in a text is that of a token. -/
theorem mem_slotNames {slot : String} {ts : List Token} :
    slot ∈ ts.filterMap Token.slotName? ↔ .slot slot.toList ∈ ts := by
  rw [List.mem_filterMap]
  constructor
  · rintro ⟨token, hmem, htoken⟩
    cases token with
    | slot name =>
      cases htoken
      rwa [String.toList_ofList]
    | char | dollar | escape | unclosed => cases htoken
  · intro hmem
    exact ⟨_, hmem, congrArg some String.ofList_toList⟩

/-- A name that occurs first among the names of slots does so among the tokens. -/
theorem idxOf_slot_lt {slot later : String} {ts : List Token}
    (h : (ts.filterMap Token.slotName?).idxOf slot < (ts.filterMap Token.slotName?).idxOf later) :
    ts.idxOf (.slot slot.toList) < ts.idxOf (.slot later.toList) := by
  induction ts with
  | nil => cases h
  | cons token ts ih =>
    cases token with
    | slot name =>
      have hname (s : String) : Token.slot name = .slot s.toList ↔ String.ofList name = s := by
        rw [Token.slot.injEq]
        exact ⟨fun heq => by rw [heq, String.ofList_toList],
          fun heq => by rw [← heq, String.toList_ofList]⟩
      have hnames : (Token.slot name :: ts).filterMap Token.slotName?
          = String.ofList name :: ts.filterMap Token.slotName? := rfl
      rw [hnames] at h
      by_cases hlater : String.ofList name = later
      · rw [List.idxOf_cons_eq _ hlater] at h
        cases h
      · rw [List.idxOf_cons_ne _ (mt (hname later).1 hlater)]
        by_cases hslot : String.ofList name = slot
        · rw [List.idxOf_cons_eq _ ((hname slot).2 hslot)]
          exact Nat.succ_pos _
        · rw [List.idxOf_cons_ne _ (mt (hname slot).1 hslot)]
          rw [List.idxOf_cons_ne _ hslot, List.idxOf_cons_ne _ hlater] at h
          exact Nat.succ_lt_succ (ih (Nat.lt_of_succ_lt_succ h))
    | char | dollar | escape | unclosed =>
      rw [List.filterMap_cons_none rfl] at h
      rw [List.idxOf_cons_ne _ Token.noConfusion, List.idxOf_cons_ne _ Token.noConfusion]
      exact Nat.succ_lt_succ (ih h)

/-- Tokens up to a slot without a text are filled in until there. -/
theorem mapM_text_eq_error {before after : List Token} {slot : List Char}
    (hbefore : ∀ s, .slot s ∈ before → isBound bindings (String.ofList s) = true)
    (hslot : isBound bindings (String.ofList slot) = false) :
    (before ++ .slot slot :: after).mapM (Token.text name bindings)
      = .error (.missingSlot name (String.ofList slot)) := by
  refine mapM_eq_error (fun token htoken => ?_) ?_
  · cases token with
    | slot s =>
      rw [Token.text, segmentText, lookup_of_isBound (hbefore s htoken)]
      exact ⟨_, rfl⟩
    | char | dollar | escape | unclosed => exact ⟨_, rfl⟩
  · rw [Token.text, segmentText, Option.isNone_iff_eq_none.1 (Option.isSome_eq_false_iff.1 hslot)]

/-- A template is filled in token by token unless some slot has no text. Then the first such slot is
missing. -/
theorem render_of_slots (h : parse name source = .ok t) (bindings : Bindings) :
    t.render bindings =
      match t.slots.find? (!isBound bindings ·) with
      | some slot => .error (.missingSlot name slot)
      | none =>
        .ok (String.join ((tokens source.toList).map (Token.replacement (valueOf bindings)))) := by
  rw [render_of_parse h, slots_of_parse h, find?_eraseDups]
  cases hfind : ((tokens source.toList).filterMap Token.slotName?).find? (!isBound bindings ·) with
  | none =>
    rw [List.find?_eq_none] at hfind
    rw [mapM_text_eq_ok fun slot hslot => lookup_of_isBound ?_]
    · rfl
    · have hmem := mem_slotNames.2 (by rwa [String.toList_ofList])
      simpa using hfind (String.ofList slot) hmem
  | some slot =>
    -- The first slot without a text is that of the first token of this kind.
    rw [List.find?_filterMap, Option.bind_eq_some_iff] at hfind
    obtain ⟨token, htoken, hslot⟩ := hfind
    obtain ⟨hunbound, before, after, htokens, hbefore⟩ := List.find?_eq_some_iff_append.1 htoken
    rw [hslot] at hunbound
    cases token with
    | slot s =>
      cases hslot
      rw [htokens, mapM_text_eq_error (fun s' hs' => ?_) (by simpa using hunbound)]
      · rfl
      · simpa [Token.slotName?] using hbefore _ hs'
    | char | dollar | escape | unclosed => cases hslot

/-! ### Bindings -/

/-- A slot of a template is one of its text. -/
theorem mem_slots_of_parse (h : parse name source = .ok t) {slot : String} :
    slot ∈ t.slots ↔ .slot slot.toList ∈ tokens source.toList := by
  rw [slots_of_parse h, List.mem_eraseDups, mem_slotNames]

/-- A template can be filled in exactly if all its slots have texts. -/
theorem render_eq_ok (h : parse name source = .ok t) {text : String} :
    t.render bindings = .ok text ↔ (∀ slot ∈ t.slots, isBound bindings slot = true) ∧
      text = String.join ((tokens source.toList).map (Token.replacement (valueOf bindings))) := by
  rw [render_of_slots h]
  cases hfind : t.slots.find? (!isBound bindings ·) with
  | none =>
    have hbound : ∀ slot ∈ t.slots, isBound bindings slot = true := by
      simpa using List.find?_eq_none.1 hfind
    constructor
    · intro heq
      exact ⟨hbound, (Except.ok.inj heq).symm⟩
    · rintro ⟨-, rfl⟩
      rfl
  | some slot =>
    have hunbound : isBound bindings slot = false := by simpa using List.find?_some hfind
    constructor
    · intro heq
      cases heq
    · rintro ⟨hbound, -⟩
      rw [hbound slot (List.mem_of_find?_eq_some hfind)] at hunbound
      cases hunbound

/-- If a template cannot be filled in, its first slot without a text is missing. -/
theorem render_eq_error (h : parse name source = .ok t) {e : CompileError} :
    t.render bindings = .error e ↔ ∃ before slot after, t.slots = before ++ slot :: after ∧
      (∀ earlier ∈ before, isBound bindings earlier = true) ∧ isBound bindings slot = false ∧
      e = .missingSlot name slot := by
  rw [render_of_slots h]
  constructor
  · intro he
    split at he
    · rename_i slot hfind
      cases he
      obtain ⟨hslot, before, after, hcut, hbefore⟩ := List.find?_eq_some_iff_append.1 hfind
      exact ⟨before, slot, after, hcut, by simpa using hbefore, by simpa using hslot, rfl⟩
    · cases he
  · rintro ⟨before, slot, after, hcut, hbefore, hslot, rfl⟩
    have hfind : t.slots.find? (!isBound bindings ·) = some slot :=
      List.find?_eq_some_iff_append.2
        ⟨by simpa using hslot, before, after, hcut, by simpa using hbefore⟩
    rw [hfind]

/-- A template is filled in alike if its slots have the same texts. -/
theorem render_congr (h : parse name source = .ok t) {bindings' : Bindings}
    (hagree : ∀ slot ∈ t.slots, bindings.lookup slot = bindings'.lookup slot) :
    t.render bindings = t.render bindings' := by
  have hbound : ∀ slot ∈ t.slots, isBound bindings' slot = isBound bindings slot :=
    fun slot hslot => by rw [isBound, isBound, hagree slot hslot]
  cases hrender : t.render bindings with
  | ok text =>
    obtain ⟨hall, rfl⟩ := (render_eq_ok h).1 hrender
    have hall' : ∀ slot ∈ t.slots, isBound bindings' slot = true :=
      fun slot hslot => (hbound slot hslot).trans (hall slot hslot)
    refine ((render_eq_ok h).2 ⟨hall', congrArg String.join ?_⟩).symm
    refine List.map_congr_left fun token htoken => ?_
    cases token with
    | slot slot =>
      have hmem := (mem_slots_of_parse h).2 (by rwa [String.toList_ofList])
      rw [Token.replacement, Token.replacement, valueOf, valueOf, hagree (String.ofList slot) hmem]
    | char | dollar | escape | unclosed => rfl
  | error e =>
    obtain ⟨before, slot, after, hcut, hbefore, hslot, rfl⟩ := (render_eq_error h).1 hrender
    rw [hcut, List.forall_mem_append, List.forall_mem_cons] at hbound
    refine ((render_eq_error h).2 ⟨before, slot, after, hcut, fun s hs => ?_, ?_, rfl⟩).symm
    · exact (hbound.1 s hs).trans (hbefore s hs)
    · exact hbound.2.1.trans hslot

/-- A template can be filled in exactly if all slots that it lists have texts. Else the first one
without a text is missing. Nothing but these texts matters, and each of them stands in the result
where its slot stands in the text of the template. The slots are listed in the order in which they
first appear there, once each. -/
theorem render_iff_slots_bound (h : parse name source = .ok t) :
    (∀ bindings, (∃ text, t.render bindings = .ok text) ↔
      ∀ slot ∈ t.slots, isBound bindings slot = true) ∧
    (∀ bindings e, t.render bindings = .error e ↔ ∃ before slot after,
      t.slots = before ++ slot :: after ∧ (∀ earlier ∈ before, isBound bindings earlier = true) ∧
      isBound bindings slot = false ∧ e = .missingSlot name slot) ∧
    (∀ bindings bindings', (∀ slot ∈ t.slots, bindings.lookup slot = bindings'.lookup slot) →
      t.render bindings = t.render bindings') ∧
    t.slots.Nodup ∧
    (∀ slot, slot ∈ t.slots ↔ .slot slot.toList ∈ tokens source.toList) ∧
    (t.slots.Pairwise fun slot later =>
      (tokens source.toList).idxOf (.slot slot.toList)
        < (tokens source.toList).idxOf (.slot later.toList)) ∧
    ∀ bindings text, t.render bindings = .ok text → ∀ before slot after,
      tokens source.toList = before ++ .slot slot :: after →
      ∃ value, bindings.lookup (String.ofList slot) = some value ∧
        text = String.join (before.map (Token.replacement (valueOf bindings))) ++ value
          ++ String.join (after.map (Token.replacement (valueOf bindings))) := by
  have hpairwise : t.slots.Pairwise fun slot later =>
      (tokens source.toList).idxOf (.slot slot.toList)
        < (tokens source.toList).idxOf (.slot later.toList) := by
    rw [slots_of_parse h]
    exact (pairwise_eraseDups _).imp idxOf_slot_lt
  refine ⟨fun bindings => ?_, fun bindings e => render_eq_error h,
    fun bindings bindings' hagree => render_congr h hagree, ?_, fun slot => mem_slots_of_parse h,
    hpairwise, fun bindings text htext before slot after htokens => ?_⟩
  · simp only [render_eq_ok h, exists_and_left, exists_eq, and_true]
  · exact hpairwise.imp fun hlt => fun heq => Nat.lt_irrefl _ (heq ▸ hlt)
  · obtain ⟨hbound, rfl⟩ := (render_eq_ok h).1 htext
    have hmem : String.ofList slot ∈ t.slots := by
      rw [mem_slots_of_parse h, String.toList_ofList, htokens]
      exact List.mem_append_right before List.mem_cons_self
    refine ⟨_, lookup_of_isBound (hbound _ hmem), ?_⟩
    rw [htokens, List.map_append, String.join_append, List.map_cons, String.join_cons,
      Token.replacement, String.append_assoc]

/-- A template with a repeated slot. Of its two slots, the one without a text is missing, and a text
that looks like a slot is no slot. -/
theorem render_iff_slots_bound_swap :
    ∃ t, parse "swap" "$\x7bb\x7d $\x7ba\x7d $\x7bb\x7d" = .ok t ∧ t.slots = ["b", "a"] ∧
      t.render [("b", "1"), ("c", "2")] = .error (.missingSlot "swap" "a") ∧
      t.render [("b", "1"), ("a", "$\x7bb\x7d")] = .ok "1 $\x7bb\x7d 1" := by
  have ht : parse "swap" "$\x7bb\x7d $\x7ba\x7d $\x7bb\x7d"
      = .ok ⟨"swap", [.slot "b", .literal " ", .slot "a", .literal " ", .slot "b"]⟩ := rfl
  obtain ⟨hok, herror, -, -, -, -, hverbatim⟩ := render_iff_slots_bound ht
  refine ⟨_, ht, by decide, (herror _ _).2 ?_, ?_⟩
  · exact ⟨["b"], "a", [], by decide, by decide, by decide, rfl⟩
  · obtain ⟨text, htext⟩ := (hok [("b", "1"), ("a", "$\x7bb\x7d")]).2 (by decide)
    have htokens : tokens "$\x7bb\x7d $\x7ba\x7d $\x7bb\x7d".toList
        = [.slot ['b'], .char ' '] ++ .slot ['a'] :: [.char ' ', .slot ['b']] := by decide +kernel
    obtain ⟨value, hvalue, rfl⟩ := hverbatim _ _ htext _ _ _ htokens
    cases hvalue
    exact htext

end Grounder.Template
