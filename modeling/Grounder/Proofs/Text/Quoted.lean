import Grounder.Proofs.Support.Except
import Grounder.Text.Quoted

/-!
# `Grounder.Proofs.Text.Quoted`: lists of literals that can be read back

A text becomes a literal character by character. Six characters are written with a backslash and a
letter (`letters`). Every other character is written as itself or by its code. Nothing here depends
on which of the two it is, so what is written is a relation (`Writes`), and `encode` is one way to
choose (`writesList_encode`).

Literals are listed with a comma and a blank between them. `readLiterals` reads such a list. It
knows where a literal ends, and that no line ends inside of it, but it does not know what the
characters stand for. What it accepts are the lists of unbroken literals
(`readLiterals_eq_some_iff`). Literals of texts are unbroken (`WritesAll.unbroken`), so a list of
them is read back one by one. Each of them says what its text was (`WritesAll.unique`), and so the
list says what the texts were (`WritesList.unique`).
-/

set_option autoImplicit false

namespace Grounder.Text.Quoted

/-! ### Codes -/

/-- The digits of codes. -/
def hexDigits : List Char :=
  ['0', '1', '2', '3', '4', '5', '6', '7', '8', '9', 'a', 'b', 'c', 'd', 'e', 'f']

/-- The number that digits stand for. -/
def codeValue (digits : List Char) : Nat :=
  digits.foldl (fun value digit => 16 * value + hexDigits.idxOf digit) 0

/-- The digit of a number below sixteen is one of the digits, at the place of the number. -/
theorem digitChar_eq {n : Nat} (h : n < 16) :
    Nat.digitChar n ∈ hexDigits ∧ hexDigits.idxOf (Nat.digitChar n) = n := by
  revert n
  decide

/-- A code is written with the digits. -/
theorem mem_hexDigits {n : Nat} {c : Char} (h : c ∈ Nat.toDigits 16 n) : c ∈ hexDigits := by
  induction n using Nat.strongRecOn with
  | ind n ih =>
    by_cases hn : n < 16
    · rw [Nat.toDigits_of_lt_base hn, List.mem_singleton] at h
      rw [h]
      exact (digitChar_eq hn).1
    · rw [Nat.toDigits_of_base_le (by decide) (by omega), List.mem_append, List.mem_singleton] at h
      rcases h with h | h
      · exact ih (n / 16) (by omega) h
      · rw [h]
        exact (digitChar_eq (by omega)).1

/-- The digits of a number stand for it. -/
theorem codeValue_toDigits (n : Nat) : codeValue (Nat.toDigits 16 n) = n := by
  induction n using Nat.strongRecOn with
  | ind n ih =>
    by_cases hn : n < 16
    · rw [Nat.toDigits_of_lt_base hn]
      show 16 * 0 + hexDigits.idxOf (Nat.digitChar n) = n
      rw [(digitChar_eq hn).2]
      omega
    · rw [Nat.toDigits_of_base_le (by decide) (by omega), codeValue, List.foldl_concat]
      show 16 * codeValue (Nat.toDigits 16 (n / 16)) + _ = n
      rw [ih (n / 16) (by omega), (digitChar_eq (by omega)).2]
      omega

/-! ### Characters -/

/-- The characters that are written with a backslash and a letter. -/
def letters : List (Char × Char) :=
  [('"', '"'), ('\\', '\\'), ('\n', 'n'), ('\r', 'r'), ('\t', 't'), ('\x00', '0')]

/-- What a character may be written as inside a literal. Which of the characters without a letter
show as themselves is left open. -/
inductive Writes (c : Char) : List Char → Prop
  | letter {l : Char} (h : (c, l) ∈ letters) : Writes c ['\\', l]
  | shown (h : c ∉ letters.map Prod.fst) : Writes c [c]
  | byCode (h : c ∉ letters.map Prod.fst) : Writes c (byCode c)

/-- What a text may be written as inside a literal. -/
inductive WritesAll : List Char → List Char → Prop
  | nil : WritesAll [] []
  | cons {c : Char} {cs text body : List Char} (hc : Writes c text) (hcs : WritesAll cs body) :
      WritesAll (c :: cs) (text ++ body)

/-- A character is written as it may be. -/
theorem writes_encodeChar (c : Char) : Writes c (encodeChar c) := by
  by_cases h : c ∈ letters.map Prod.fst
  · -- Six characters, each with its letter.
    simp only [letters, List.map_cons, List.map_nil, List.mem_cons, List.not_mem_nil,
      or_false] at h
    rcases h with rfl | rfl | rfl | rfl | rfl | rfl <;> exact .letter (by decide)
  · have hencode : encodeChar c = if isShown c then [c] else Quoted.byCode c := by
      simp only [letters, List.map_cons, List.map_nil, List.mem_cons, List.not_mem_nil,
        or_false, not_or] at h
      simp [encodeChar, h]
    rw [hencode]
    split
    · exact .shown h
    · exact .byCode h

/-- A text is written as it may be. -/
theorem writesAll_flatMap (cs : List Char) : WritesAll cs (cs.flatMap encodeChar) := by
  induction cs with
  | nil => exact .nil
  | cons c cs ih => exact .cons (writes_encodeChar c) ih

/-! ### Telling characters apart -/

section
variable {c c' : Char} {cs cs' text text' body rest rest' : List Char}

/-- What stands up to the first closing brace can be told from what follows. -/
theorem append_brace_inj {digits digits' : List Char} (h : '\x7d' ∉ digits) (h' : '\x7d' ∉ digits')
    (heq : digits ++ '\x7d' :: rest = digits' ++ '\x7d' :: rest') :
    digits = digits' ∧ rest = rest' := by
  induction digits generalizing digits' with
  | nil =>
    cases digits' with
    | nil => exact ⟨rfl, (List.cons.inj heq).2⟩
    | cons d ds => exact absurd ((List.cons.inj heq).1 ▸ List.mem_cons_self) h'
  | cons d ds ih =>
    cases digits' with
    | nil => exact absurd ((List.cons.inj heq).1 ▸ List.mem_cons_self) h
    | cons d' ds' =>
      obtain ⟨rfl, hrest⟩ := List.cons.inj heq
      obtain ⟨rfl, rfl⟩ := ih (fun hmem => h (List.mem_cons_of_mem d hmem))
        (fun hmem => h' (List.mem_cons_of_mem d hmem)) hrest
      exact ⟨rfl, rfl⟩

/-- A character written by its code, as a list that begins with a backslash. -/
theorem byCode_append (c : Char) (rest : List Char) : byCode c ++ rest
    = '\\' :: 'u' :: '\x7b' :: (Nat.toDigits 16 c.toNat ++ '\x7d' :: rest) := by
  simp [byCode]

/-- Codes tell characters apart. -/
theorem byCode_append_inj (h : byCode c ++ rest = byCode c' ++ rest') : c = c' ∧ rest = rest' := by
  have hbrace (n : Nat) : '\x7d' ∉ Nat.toDigits 16 n := fun hmem =>
    absurd (mem_hexDigits hmem) (by decide)
  rw [byCode_append, byCode_append] at h
  obtain ⟨hdigits, hrest⟩ := append_brace_inj (hbrace _) (hbrace _) (by simpa using h)
  refine ⟨Char.toNat_inj.1 ?_, hrest⟩
  rw [← codeValue_toDigits c.toNat, hdigits, codeValue_toDigits]

/-- A backslash is not among the characters that stand for themselves. -/
theorem ne_backslash (h : c ∉ letters.map Prod.fst) : c ≠ '\\' := by
  rintro rfl
  exact h (by decide)

/-- No letter after a backslash announces a code. -/
theorem letter_ne_u {l : Char} (h : (c, l) ∈ letters) : l ≠ 'u' := by
  rintro rfl
  simp [letters] at h

/-- The letters tell the characters apart. -/
theorem letter_inj {l : Char} (h : (c, l) ∈ letters) (h' : (c', l) ∈ letters) : c = c' := by
  have hinj : ∀ p ∈ letters, ∀ q ∈ letters, p.2 = q.2 → p.1 = q.1 := by decide
  exact hinj _ h _ h' rfl

/-- What is written first tells the character, and what follows it. -/
theorem Writes.append_inj (h : Writes c text) (h' : Writes c' text')
    (heq : text ++ rest = text' ++ rest') : c = c' ∧ rest = rest' := by
  -- Characters that are written in different ways differ in what comes first, or right after it.
  cases h with
  | letter h =>
    cases h' with
    | letter h' =>
      simp only [List.cons_append, List.nil_append, List.cons.injEq, true_and] at heq
      obtain ⟨rfl, hrest⟩ := heq
      exact ⟨letter_inj h h', hrest⟩
    | shown h' => exact absurd (List.cons.inj heq).1.symm (ne_backslash h')
    | byCode h' =>
      rw [byCode_append] at heq
      exact absurd (List.cons.inj (List.cons.inj heq).2).1 (letter_ne_u h)
  | shown h =>
    cases h' with
    | letter h' => exact absurd (List.cons.inj heq).1 (ne_backslash h)
    | shown h' => exact List.cons.inj heq
    | byCode h' =>
      rw [byCode_append] at heq
      exact absurd (List.cons.inj heq).1 (ne_backslash h)
  | byCode h =>
    cases h' with
    | letter h' =>
      rw [byCode_append] at heq
      exact absurd (List.cons.inj (List.cons.inj heq).2).1.symm (letter_ne_u h')
    | shown h' =>
      rw [byCode_append] at heq
      exact absurd (List.cons.inj heq).1.symm (ne_backslash h')
    | byCode h' => exact byCode_append_inj heq

/-- A character is written as something. -/
theorem Writes.ne_nil (h : Writes c text) : text ≠ [] := by
  cases h <;> simp [Quoted.byCode]

/-- What is written tells the text. -/
theorem WritesAll.unique (h : WritesAll cs body) (h' : WritesAll cs' body) : cs = cs' := by
  induction h generalizing cs' with
  | nil =>
    generalize hbody : ([] : List Char) = body at h'
    cases h' with
    | nil => rfl
    | cons hc _ => exact absurd (List.append_eq_nil_iff.1 hbody.symm).1 hc.ne_nil
  | @cons c cs text body hc hcs ih =>
    generalize hbody : text ++ body = body' at h'
    cases h' with
    | nil => exact absurd (List.append_eq_nil_iff.1 hbody).1 hc.ne_nil
    | cons hc' hcs' =>
      obtain ⟨rfl, rfl⟩ := hc.append_inj hc' hbody
      rw [ih hcs']

end

/-! ### Reading literals -/

/-- What stands between the quotes of a literal: no line ends there, and a quote or a backslash
stands there only after a backslash that is not itself after one. -/
inductive Unbroken : List Char → Prop
  | nil : Unbroken []
  | plain {c : Char} {body : List Char} (hquote : c ≠ '"') (hbackslash : c ≠ '\\')
      (hfeed : c ≠ '\n') (hbody : Unbroken body) : Unbroken (c :: body)
  | escaped {c : Char} {body : List Char} (hfeed : c ≠ '\n') (hbody : Unbroken body) :
      Unbroken ('\\' :: c :: body)

/-- Literals as they are listed. -/
def listing (bodies : List (List Char)) : List Char :=
  [',', ' '].intercalate (bodies.map fun body => '"' :: body ++ ['"'])

mutual

/-- The rest of a literal, with the literals after it. A character that stands after a backslash
does not end the literal. -/
def readBody (escaped : Bool) : List Char → Option (List Char × List (List Char))
  | [] => none
  | c :: text =>
    if c = '\n' then none
    else if escaped = false ∧ c = '"' then (readMore text).map fun bodies => ([], bodies)
    else (readBody (!escaped && c == '\\') text).map fun (body, bodies) => (c :: body, bodies)

/-- The literals after a literal. -/
def readMore : List Char → Option (List (List Char))
  | [] => some []
  | ',' :: ' ' :: '"' :: text => (readBody false text).map fun (body, bodies) => body :: bodies
  | _ => none

end

/-- What stands between the quotes of listed literals. -/
def readLiterals (text : List Char) : Option (List (List Char)) :=
  if text.isEmpty then some [] else readMore (',' :: ' ' :: text)

section
variable {text body : List Char} {bodies : List (List Char)}

/-- The literals after a literal, as they are listed. -/
def more (bodies : List (List Char)) : List Char :=
  bodies.flatMap fun body => ',' :: ' ' :: '"' :: (body ++ ['"'])

/-- The first literal is listed as the others are, but for the comma and the blank. -/
theorem comma_listing (body : List Char) (bodies : List (List Char)) :
    ',' :: ' ' :: listing (body :: bodies) = more (body :: bodies) := by
  induction bodies generalizing body with
  | nil => simp [listing, more]
  | cons body' bodies ih =>
    have hcons : listing (body :: body' :: bodies)
        = '"' :: (body ++ '"' :: ',' :: ' ' :: listing (body' :: bodies)) := by
      simp [listing, List.intercalate_cons_cons]
    rw [hcons, ih]
    simp [more]

/-- The literal that is read ends at the first quote that is not after a backslash. -/
theorem readBody_append (h : Unbroken body) (text : List Char) :
    readBody false (body ++ '"' :: text) = (readMore text).map fun bodies => (body, bodies) := by
  induction h with
  | nil => simp [readBody]
  | plain hquote hbackslash hfeed _ ih =>
    simp [readBody, hquote, beq_eq_false_iff_ne.2 hbackslash, hfeed, ih, Option.map_map,
      Function.comp_def]
  | escaped hfeed _ ih =>
    simp [readBody, hfeed, ih, Option.map_map, Function.comp_def]

/-- What is read as a literal is one. After a backslash, it is the rest of one. -/
theorem exists_of_readBody {escaped : Bool} (h : readBody escaped text = some (body, bodies)) :
    Unbroken (if escaped then '\\' :: body else body) ∧
      ∃ rest, text = body ++ '"' :: rest ∧ readMore rest = some bodies := by
  induction text generalizing escaped body with
  | nil => cases h
  | cons c text ih =>
    rw [readBody] at h
    split at h
    · cases h
    · rename_i hfeed
      split at h
      · rename_i hquote
        obtain ⟨rfl, rfl⟩ := hquote
        obtain ⟨bodies', hmore, heq⟩ := Option.map_eq_some_iff.1 h
        cases heq
        exact ⟨.nil, text, rfl, hmore⟩
      · rename_i hquote
        obtain ⟨⟨body', bodies'⟩, hbody, heq⟩ := Option.map_eq_some_iff.1 h
        cases heq
        obtain ⟨hunbroken, rest, rfl, hrest⟩ := ih hbody
        refine ⟨?_, rest, rfl, hrest⟩
        cases escaped with
        | true => exact .escaped hfeed hunbroken
        | false =>
          have hquote : c ≠ '"' := fun hc => hquote ⟨rfl, hc⟩
          by_cases hbackslash : c = '\\'
          · subst hbackslash
            exact hunbroken
          · rw [if_neg (by simpa using hbackslash)] at hunbroken
            exact .plain hquote hbackslash hfeed hunbroken

/-- What is read after a literal are unbroken literals, each after a comma and a blank. -/
theorem readMore_eq_some_iff :
    readMore text = some bodies ↔ (∀ body ∈ bodies, Unbroken body) ∧ text = more bodies := by
  induction bodies generalizing text with
  | nil =>
    constructor
    · intro h
      unfold readMore at h
      split at h
      · exact ⟨fun _ hmem => absurd hmem List.not_mem_nil, rfl⟩
      · simp at h
      · cases h
    · rintro ⟨-, rfl⟩
      rfl
  | cons body bodies ih =>
    constructor
    · intro h
      unfold readMore at h
      split at h
      · simp at h
      · obtain ⟨⟨body', bodies'⟩, hbody, heq⟩ := Option.map_eq_some_iff.1 h
        cases heq
        obtain ⟨hunbroken, rest, rfl, hrest⟩ := exists_of_readBody hbody
        obtain ⟨hall, rfl⟩ := ih.1 hrest
        exact ⟨List.forall_mem_cons.2 ⟨hunbroken, hall⟩, by simp [more]⟩
      · cases h
    · rintro ⟨hall, rfl⟩
      obtain ⟨hunbroken, hall⟩ := List.forall_mem_cons.1 hall
      have hmore : more (body :: bodies) = ',' :: ' ' :: '"' :: (body ++ '"' :: more bodies) := by
        simp [more]
      rw [hmore, readMore, readBody_append hunbroken, ih.2 ⟨hall, rfl⟩]
      rfl

/-- What is read are unbroken literals, as they are listed. -/
theorem readLiterals_eq_some_iff :
    readLiterals text = some bodies ↔ (∀ body ∈ bodies, Unbroken body) ∧ text = listing bodies := by
  cases text with
  | nil =>
    cases bodies with
    | nil => simp [readLiterals, listing]
    | cons body bodies => simp [readLiterals, listing]
  | cons c text =>
    show readMore (',' :: ' ' :: c :: text) = some bodies ↔ _
    rw [readMore_eq_some_iff]
    cases bodies with
    | nil => simp [more, listing]
    | cons body bodies => simp [← comma_listing]

/-- The quote after the backslash does not end the first literal. -/
example : readLiterals "\"a\\\"b\", \"\"".toList = some ["a\\\"b".toList, []] := by
  decide +kernel

/-- No line ends between the quotes. -/
theorem Unbroken.feed_not_mem (h : Unbroken body) : '\n' ∉ body := by
  induction h with
  | nil => exact List.not_mem_nil
  | plain _ _ hfeed _ ih => simp [hfeed.symm, ih]
  | escaped hfeed _ ih => simp [hfeed.symm, ih]

/-- No line ends in listed literals. -/
theorem feed_not_mem_listing (h : ∀ body ∈ bodies, Unbroken body) : '\n' ∉ listing bodies := by
  cases bodies with
  | nil => simp [listing]
  | cons body bodies =>
    have hmore : '\n' ∉ more (body :: bodies) := by
      simp only [more, List.mem_flatMap, not_exists, not_and]
      intro body hbody
      simp [(h body hbody).feed_not_mem]
    rw [← comma_listing] at hmore
    exact fun hmem => hmore (List.mem_cons_of_mem _ (List.mem_cons_of_mem _ hmem))

end

/-! ### Literals of texts -/

section
variable {c : Char} {cs text body : List Char}

/-- Characters that show as themselves keep a literal unbroken. -/
theorem Unbroken.append_plain (h : ∀ c ∈ text, c ≠ '"' ∧ c ≠ '\\' ∧ c ≠ '\n')
    (hbody : Unbroken body) : Unbroken (text ++ body) := by
  induction text with
  | nil => exact hbody
  | cons c text ih =>
    obtain ⟨⟨hquote, hbackslash, hfeed⟩, h⟩ := List.forall_mem_cons.1 h
    exact .plain hquote hbackslash hfeed (ih h)

/-- A character may be written in front of what stands between quotes. -/
theorem Writes.unbroken (h : Writes c text) (hbody : Unbroken body) : Unbroken (text ++ body) := by
  cases h with
  | letter h =>
    have hfeed : ∀ p ∈ letters, p.2 ≠ '\n' := by decide
    exact .escaped (hfeed _ h) hbody
  | shown h =>
    have hplain : '"' ∈ letters.map Prod.fst ∧ '\n' ∈ letters.map Prod.fst := by decide
    exact .plain (fun hc => h (hc ▸ hplain.1)) (ne_backslash h) (fun hc => h (hc ▸ hplain.2)) hbody
  | byCode h =>
    have hmarks : '"' ∉ hexDigits ∧ '\\' ∉ hexDigits ∧ '\n' ∉ hexDigits := by decide
    rw [byCode_append]
    refine .escaped (by decide) (.plain (by decide) (by decide) (by decide) ?_)
    refine .append_plain (fun c hc => ?_) (.plain (by decide) (by decide) (by decide) hbody)
    have hc := mem_hexDigits hc
    exact ⟨ne_of_mem_of_not_mem hc hmarks.1, ne_of_mem_of_not_mem hc hmarks.2.1,
      ne_of_mem_of_not_mem hc hmarks.2.2⟩

/-- What a text is written as may stand between quotes. -/
theorem WritesAll.unbroken (h : WritesAll cs body) : Unbroken body := by
  induction h with
  | nil => exact .nil
  | cons hc _ ih => exact hc.unbroken ih

end

/-- What a list of texts may be written as. -/
def WritesList (texts : List String) (written : String) : Prop :=
  ∃ bodies, List.Forall₂ (fun (s : String) body => WritesAll s.toList body) texts bodies ∧
    written.toList = listing bodies

section
variable {texts texts' : List String} {written : String}

/-- Literals of texts are read back one by one. -/
theorem WritesList.readLiterals (h : WritesList texts written) :
    ∃ bodies, Quoted.readLiterals written.toList = some bodies ∧
      List.Forall₂ (fun (s : String) body => WritesAll s.toList body) texts bodies ∧
      (∀ body ∈ bodies, Unbroken body) ∧ '\n' ∉ written.toList := by
  obtain ⟨bodies, hwrites, hwritten⟩ := h
  have hunbroken : ∀ body ∈ bodies, Unbroken body := by
    intro body hbody
    obtain ⟨s, -, hs⟩ := Proofs.Support.exists_counterpart hwrites hbody
    exact hs.unbroken
  refine ⟨bodies, readLiterals_eq_some_iff.2 ⟨hunbroken, hwritten⟩, hwrites, hunbroken, ?_⟩
  rw [hwritten]
  exact feed_not_mem_listing hunbroken

/-- What is written tells the texts. -/
theorem WritesList.unique (h : WritesList texts written) (h' : WritesList texts' written) :
    texts = texts' := by
  obtain ⟨bodies, hread, hwrites, -⟩ := h.readLiterals
  obtain ⟨bodies', hread', hwrites', -⟩ := h'.readLiterals
  obtain rfl : bodies = bodies' := Option.some.inj (hread.symm.trans hread')
  refine List.left_unique_forall₂' ?_ hwrites hwrites'
  intro s body s' hs hs'
  exact String.toList_inj.1 (hs.unique hs')

end

/-- Literals with a comma and a blank between them are a way to write texts. -/
theorem writesList_encode (texts : List String) :
    WritesList texts (", ".intercalate (texts.map encode)) := by
  refine ⟨texts.map fun s => s.toList.flatMap encodeChar, ?_, ?_⟩
  · rw [List.forall₂_map_right_iff, List.forall₂_same]
    exact fun s _ => writesAll_flatMap s.toList
  · have hliterals : (texts.map encode).map String.toList
        = (texts.map fun s => s.toList.flatMap encodeChar).map
            fun body => '"' :: body ++ ['"'] := by
      rw [List.map_map, List.map_map]
      exact List.map_congr_left fun s _ => String.toList_ofList
    have hseparator : ", ".toList = [',', ' '] := by decide
    rw [String.toList_intercalate, hliterals, hseparator, listing]

end Grounder.Text.Quoted
