import Grounder.Code.ClassName
import Mathlib

/-!
# `Grounder.Proofs.Code.ClassName`: what the class of an action says about its name

A class takes the words of an action's name together and leaves everything else out
(`toList_className`). It has ASCII letters and digits only, so it is an identifier unless the first
of them is a digit (`isIdentifier_className_iff`). Names with the same words have the same class,
whatever separates the words, and words can even be cut in different places.

Names of words in small letters, with the same separator between any two of them, are on the safe
side: their classes are identifiers, and different names have different classes (`Regular`). The
capitals of such a class show where its words begin, so the words can be read off it
(`map_capitalized_eq_of_flatMap_eq`).
-/

set_option autoImplicit false

namespace Grounder.ClassName

/-! ### The words of a name -/

/-- The words of a name. They are separated by what is no ASCII letter or digit. -/
def words (action : String) : List (List Char) :=
  (action.toList.splitOnP fun c => !c.isAlphanum).filter fun word => !word.isEmpty

/-- A word that starts with a capital if it starts with a letter. -/
def capitalized : List Char → List Char
  | [] => []
  | c :: rest => c.toUpper :: rest

/-- Characters are taken over up to the next separator, and a new word begins behind it. -/
theorem joinWords_eq (cs : List Char) :
    ∃ first rest, (cs.splitOnP fun c => !c.isAlphanum) = first :: rest ∧
      joinWords true cs = capitalized first ++ rest.flatMap capitalized ∧
      joinWords false cs = first ++ rest.flatMap capitalized := by
  induction cs with
  | nil => exact ⟨[], [], rfl, rfl, rfl⟩
  | cons c cs ih =>
    obtain ⟨first, rest, hsplit, hstart, hwithin⟩ := ih
    rw [List.splitOnP_cons_eq_if_modifyHead, hsplit]
    by_cases hc : c.isAlphanum
    · refine ⟨c :: first, rest, by simp [hc], ?_, ?_⟩
      · simp [joinWords, hc, hwithin, capitalized]
      · simp [joinWords, hc, hwithin]
    · refine ⟨[], first :: rest, by simp [hc], ?_, ?_⟩
      · simp [joinWords, hc, hstart, capitalized]
      · simp [joinWords, hc, hstart]

/-- Nothing is left of empty words. -/
theorem flatMap_capitalized_filter (ws : List (List Char)) :
    (ws.filter fun word => !word.isEmpty).flatMap capitalized = ws.flatMap capitalized := by
  induction ws with
  | nil => rfl
  | cons word ws ih =>
    cases word with
    | nil => exact ih
    | cons c rest => simp [ih]

/-- The class of an action has the words of its name, each with a capital, and then `Action`. -/
theorem toList_className (action : String) :
    (className action).toList = (words action).flatMap capitalized ++ "Action".toList := by
  obtain ⟨first, rest, hsplit, hstart, -⟩ := joinWords_eq action.toList
  rw [className, String.toList_append, String.toList_ofList, words, flatMap_capitalized_filter,
    hstart, hsplit, List.flatMap_cons]

/-- Two names have one class if their words, run together, do. -/
theorem className_eq_iff (a b : String) :
    className a = className b
      ↔ (words a).flatMap capitalized = (words b).flatMap capitalized := by
  rw [← String.toList_inj, toList_className, toList_className, List.append_left_inj]

/-! ### Classes that are identifiers -/

/-- An identifier of C++, as far as ASCII goes: a letter or underscore, and then letters, digits
and underscores. -/
def isIdentifier (text : String) : Bool :=
  match text.toList with
  | [] => false
  | c :: rest => (c.isAlpha || c == '_') && rest.all fun d => d.isAlphanum || d == '_'

/-- The first word of a name begins with a digit. -/
def startsWithDigit (action : String) : Bool :=
  (action.toList.find? Char.isAlphanum).any Char.isDigit

/-- A letter or digit is one of the two and not the other. -/
theorem isAlpha_eq_not_isDigit {c : Char} (h : c.isAlphanum = true) : c.isAlpha = !c.isDigit := by
  cases hdigit : c.isDigit with
  | false =>
    rw [Char.isAlphanum, hdigit, Bool.or_false] at h
    exact h
  | true =>
    rw [Bool.not_true, Bool.eq_false_iff]
    simp only [Char.isDigit, Char.isAlpha, Char.isUpper, Char.isLower, ge_iff_le, Bool.or_eq_true,
      Bool.and_eq_true, decide_eq_true_eq, UInt32.le_iff_toNat_le, ne_eq] at hdigit ⊢
    have h9 : '9'.val.toNat = 57 := rfl
    have hA : 'A'.val.toNat = 65 := rfl
    have ha : 'a'.val.toNat = 97 := rfl
    omega

/-- A letter or digit stays one as a capital. -/
theorem isAlphanum_toUpper {c : Char} (h : c.isAlphanum = true) : c.toUpper.isAlphanum = true := by
  have halpha := isAlpha_eq_not_isDigit h
  cases hdigit : c.isDigit with
  | false =>
    rw [Char.isAlphanum, Char.isAlpha_toUpper_eq_isAlpha, halpha, hdigit]
    rfl
  | true =>
    -- A digit is no small letter, so it has no capital.
    have hlower : ¬ c.isLower := by
      rw [hdigit, Char.isAlpha, Bool.not_true, Bool.or_eq_false_iff] at halpha
      rw [halpha.2]
      exact Bool.false_ne_true
    rwa [Char.toUpper_eq_of_not_isLower hlower]

/-- Words run together have letters and digits only. -/
theorem isAlphanum_of_mem_joinWords {cs : List Char} {start : Bool} {c : Char}
    (h : c ∈ joinWords start cs) : c.isAlphanum = true := by
  induction cs generalizing start with
  | nil => cases h
  | cons d cs ih =>
    by_cases hd : d.isAlphanum
    · rw [joinWords, if_pos hd, List.mem_cons] at h
      rcases h with rfl | h
      · cases start with
        | true => exact isAlphanum_toUpper hd
        | false => exact hd
      · exact ih h
    · rw [joinWords, if_neg hd] at h
      exact ih h

/-- Words run together begin with the first letter or digit. -/
theorem head?_joinWords (cs : List Char) :
    (joinWords true cs).head? = (cs.find? Char.isAlphanum).map Char.toUpper := by
  induction cs with
  | nil => rfl
  | cons c cs ih =>
    by_cases hc : c.isAlphanum
    · rw [joinWords, if_pos hc, List.find?_cons_of_pos hc]
      rfl
    · rw [joinWords, if_neg hc, List.find?_cons_of_neg hc, ih]

/-- A class is an identifier if the first letter or digit of the action's name is no digit. -/
theorem isIdentifier_className_iff (action : String) :
    isIdentifier (className action) = true ↔ startsWithDigit action = false := by
  have hhead := head?_joinWords action.toList
  rw [isIdentifier, startsWithDigit, className, String.toList_append, String.toList_ofList]
  cases hjoined : joinWords true action.toList with
  | nil =>
    -- Nothing but `Action` is left of the name.
    rw [hjoined, List.head?_nil, eq_comm, Option.map_eq_none_iff] at hhead
    rw [hhead]
    decide
  | cons c rest =>
    rw [hjoined, List.head?_cons, eq_comm, Option.map_eq_some_iff] at hhead
    obtain ⟨first, hfirst, rfl⟩ := hhead
    have hsuffix : "Action".toList.all (fun d => d.isAlphanum || d == '_') = true := by decide
    have hrest : (rest ++ "Action".toList).all (fun d => d.isAlphanum || d == '_') = true := by
      rw [List.all_append, hsuffix, Bool.and_true, List.all_eq_true]
      intro d hd
      rw [isAlphanum_of_mem_joinWords (hjoined ▸ List.mem_cons_of_mem _ hd), Bool.true_or]
    have halphanum : first.isAlphanum = true := List.find?_some hfirst
    have hunderscore : (first.toUpper == '_') = false := by
      rw [beq_eq_false_iff_ne]
      intro heq
      have hupper := isAlphanum_toUpper halphanum
      rw [heq] at hupper
      cases hupper
    show ((first.toUpper.isAlpha || first.toUpper == '_')
      && (rest ++ "Action".toList).all fun d => d.isAlphanum || d == '_') = true ↔ _
    rw [hunderscore, Bool.or_false, hrest, Bool.and_true, Char.isAlpha_toUpper_eq_isAlpha,
      isAlpha_eq_not_isDigit halphanum, hfirst, Option.any_some, Bool.not_eq_true']

/-! ### Words that can be read off a class -/

/-- A word that begins with a letter and has no capital behind it. -/
def isPlain : List Char → Bool
  | [] => false
  | c :: rest => c.isAlpha && rest.all fun d => !d.isUpper

/-- A word that begins with a small letter and has no capital. -/
def isSmall : List Char → Bool
  | [] => false
  | c :: rest => c.isLower && rest.all fun d => !d.isUpper

/-- Small words are plain. -/
theorem isPlain_of_isSmall {word : List Char} (h : isSmall word = true) : isPlain word = true := by
  cases word with
  | nil => cases h
  | cons c rest =>
    rw [isSmall, Bool.and_eq_true] at h
    rw [isPlain, Char.isAlpha, h.1, h.2, Bool.or_true, Bool.and_true]

/-- A plain word has a capital in front and no other. -/
theorem exists_capitalized_of_isPlain {word : List Char} (h : isPlain word = true) :
    ∃ c rest, capitalized word = c :: rest ∧ c.isUpper = true ∧ ∀ d ∈ rest, d.isUpper = false := by
  cases word with
  | nil => cases h
  | cons c rest =>
    rw [isPlain, Bool.and_eq_true, List.all_eq_true] at h
    refine ⟨c.toUpper, rest, rfl, c.isUpper_toUpper_eq_isAlpha.trans h.1, fun d hd => ?_⟩
    rw [← Bool.not_eq_true']
    exact h.2 d hd

/-- Characters of which none but the first is a capital are not cut. -/
theorem isChain_of_not_isUpper {rest : List Char} (h : ∀ d ∈ rest, d.isUpper = false) (c : Char) :
    (c :: rest).IsChain fun _ d => (!d.isUpper) = true := by
  induction rest generalizing c with
  | nil => exact List.isChain_singleton c
  | cons d rest ih =>
    rw [List.forall_mem_cons] at h
    exact List.isChain_cons_cons.2 ⟨by rw [h.1]; rfl, ih h.2 d⟩

/-- A capital stands where a word begins, so words are found again after they were run together. -/
theorem splitBy_flatMap_capitalized {ws : List (List Char)} (h : ∀ word ∈ ws, isPlain word = true) :
    (ws.flatMap capitalized).splitBy (fun _ d => !d.isUpper) = ws.map capitalized := by
  rw [List.flatMap_def]
  apply List.splitBy_flatten
  · intro hempty
    obtain ⟨word, hword, heq⟩ := List.mem_map.1 hempty
    obtain ⟨c, rest, hcap, -, -⟩ := exists_capitalized_of_isPlain (h word hword)
    rw [hcap] at heq
    cases heq
  · intro hump hhump
    obtain ⟨word, hword, rfl⟩ := List.mem_map.1 hhump
    obtain ⟨c, rest, hcap, -, hrest⟩ := exists_capitalized_of_isPlain (h word hword)
    rw [hcap]
    exact isChain_of_not_isUpper hrest c
  · refine (List.pairwise_of_forall_mem_list fun hump hhump next hnext => ?_).isChain
    obtain ⟨word, hword, rfl⟩ := List.mem_map.1 hhump
    obtain ⟨word', hword', rfl⟩ := List.mem_map.1 hnext
    obtain ⟨c, rest, hcap, -, -⟩ := exists_capitalized_of_isPlain (h word hword)
    obtain ⟨c', rest', hcap', hupper, -⟩ := exists_capitalized_of_isPlain (h word' hword')
    refine ⟨by rw [hcap]; exact List.cons_ne_nil _ _, by rw [hcap']; exact List.cons_ne_nil _ _, ?_⟩
    simp only [hcap', List.head_cons, hupper, Bool.not_true]

/-- Plain words that are the same when run together are the same one by one, up to the capitals they
are given. -/
theorem map_capitalized_eq_of_flatMap_eq {ws ws' : List (List Char)}
    (h : ∀ word ∈ ws, isPlain word = true) (h' : ∀ word ∈ ws', isPlain word = true)
    (heq : ws.flatMap capitalized = ws'.flatMap capitalized) :
    ws.map capitalized = ws'.map capitalized := by
  rw [← splitBy_flatMap_capitalized h, heq, splitBy_flatMap_capitalized h']

/-- Names of plain words have one class if their words are the same, up to capitals in front. -/
theorem className_eq_iff_of_isPlain {a b : String} (ha : ∀ word ∈ words a, isPlain word = true)
    (hb : ∀ word ∈ words b, isPlain word = true) :
    className a = className b ↔ (words a).map capitalized = (words b).map capitalized := by
  rw [className_eq_iff]
  constructor
  · exact map_capitalized_eq_of_flatMap_eq ha hb
  · intro h
    rw [List.flatMap_def, h, ← List.flatMap_def]

/-- The word without a capital in front. -/
def uncapitalized : List Char → List Char
  | [] => []
  | c :: rest => c.toLower :: rest

/-- A small word is found again after it was given a capital. -/
theorem uncapitalized_capitalized {word : List Char} (h : isSmall word = true) :
    uncapitalized (capitalized word) = word := by
  cases word with
  | nil => rfl
  | cons c rest =>
    rw [isSmall, Bool.and_eq_true] at h
    rw [capitalized, uncapitalized, Char.toLower_toUpper_eq_toLower,
      Char.toLower_eq_of_not_isUpper (Char.not_isUpper_of_isLower h.1)]

/-- Small words that are the same when run together are the same one by one. -/
theorem eq_of_flatMap_capitalized_eq {ws ws' : List (List Char)}
    (h : ∀ word ∈ ws, isSmall word = true) (h' : ∀ word ∈ ws', isSmall word = true)
    (heq : ws.flatMap capitalized = ws'.flatMap capitalized) : ws = ws' := by
  have hback {ws : List (List Char)} (h : ∀ word ∈ ws, isSmall word = true) :
      (ws.map capitalized).map uncapitalized = ws := by
    rw [List.map_map]
    exact (List.map_congr_left fun word hword => uncapitalized_capitalized (h word hword)).trans
      ws.map_id
  rw [← hback h, ← hback h', map_capitalized_eq_of_flatMap_eq
    (fun word hword => isPlain_of_isSmall (h word hword))
    (fun word hword => isPlain_of_isSmall (h' word hword)) heq]

/-! ### Regular names -/

/-- A name of words in small letters, with `sep` between any two of them. -/
structure Regular (sep : Char) (action : String) : Prop where
  small : ∀ word ∈ words action, isSmall word = true
  joined : action.toList = [sep].intercalate (words action)

/-- The first word of a regular name begins with a letter. -/
theorem Regular.startsWithDigit_eq_false {sep : Char} {action : String} (h : Regular sep action) :
    startsWithDigit action = false := by
  have hjoined := h.joined
  rw [startsWithDigit, hjoined]
  cases hwords : words action with
  | nil => rfl
  | cons word ws =>
    have hsmall := h.small word (hwords ▸ List.mem_cons_self)
    cases word with
    | nil => cases hsmall
    | cons c rest =>
      rw [isSmall, Bool.and_eq_true] at hsmall
      have halphanum : c.isAlphanum = true := by simp [Char.isAlphanum, Char.isAlpha, hsmall.1]
      have hdigit := isAlpha_eq_not_isDigit halphanum
      rw [Char.isAlpha, hsmall.1, Bool.or_true, eq_comm, Bool.not_eq_true'] at hdigit
      cases ws <;> simp [List.intercalate_cons_cons, halphanum, hdigit]

/-- Regular names with one separator have different classes if they are different. -/
theorem Regular.eq_of_className_eq {sep : Char} {a b : String} (ha : Regular sep a)
    (hb : Regular sep b) (h : className a = className b) : a = b := by
  have hwords := eq_of_flatMap_capitalized_eq ha.small hb.small ((className_eq_iff a b).1 h)
  rw [← String.toList_inj, ha.joined, hb.joined, hwords]

end Grounder.ClassName
