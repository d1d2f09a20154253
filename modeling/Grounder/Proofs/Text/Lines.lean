import Grounder.Text.Lines
import Mathlib.Data.List.Basic

/-!
# `Grounder.Proofs.Text.Lines`: texts that are put together from lines

Listings and generated units are written line by line (`Text.unlines`) and read line by line
(`Text.lines`). Both directions are here:

* `splitOn_unlines`: cutting at the line feeds gives the lines back, if none of them holds a line
  feed;
* `lines_unlines`: so does reading the lines, if moreover none ends in a carriage return, which the
  reader takes for a part of the line end;
* `feed_not_mem_of_mem_lines`: whatever is read as a line holds no line feed.
-/

set_option autoImplicit false

namespace Grounder

/-! ### Pieces between separators -/

section Pieces

variable {α : Type} [DecidableEq α] {a : α} {xs piece : List α}

/-- A piece between separators is a part of the whole. -/
theorem subset_of_mem_splitOn (h : piece ∈ xs.splitOn a) : piece ⊆ xs := by
  intro x hx
  have hwhole : [a].intercalate (xs.splitOn a) = xs := List.intercalate_splitOn a
  rw [← hwhole]
  generalize xs.splitOn a = pieces at h
  -- Joining the pieces again loses none of their members.
  induction pieces with
  | nil => cases h
  | cons first rest ih =>
    cases rest with
    | nil =>
      rw [List.mem_singleton.1 h] at hx
      simpa [List.intercalate] using hx
    | cons second rest =>
      rw [List.intercalate_cons_cons, List.mem_append]
      rcases List.mem_cons.1 h with rfl | h
      · exact Or.inl (List.mem_append_left _ hx)
      · exact Or.inr (ih h)

/-- A piece between separators holds none of them. -/
theorem not_mem_of_mem_splitOn (h : piece ∈ xs.splitOn a) : a ∉ piece := by
  induction xs generalizing piece with
  | nil =>
    rw [List.splitOn_nil, List.mem_singleton] at h
    rw [h]
    exact List.not_mem_nil
  | cons x xs ih =>
    rw [List.splitOn_cons_eq_if_modifyHead] at h
    split at h
    · rcases List.mem_cons.1 h with rfl | h
      · exact List.not_mem_nil
      · exact ih h
    · rename_i hx
      -- The first piece has grown by an element that is no separator.
      obtain ⟨first, rest, hpieces⟩ := List.exists_cons_of_ne_nil (List.splitOn_ne_nil a xs)
      rw [hpieces, List.modifyHead_cons] at h
      rcases List.mem_cons.1 h with rfl | h
      · have hfirst : a ∉ first := ih (hpieces ▸ List.mem_cons_self)
        simpa [List.mem_cons, hfirst] using fun heq : a = x => hx (by simp [heq])
      · exact ih (hpieces ▸ List.mem_cons_of_mem _ h)

/-- Where two lists meet at a separator, their pieces go one after the other. -/
theorem splitOn_append_cons (xs ys : List α) :
    (xs ++ a :: ys).splitOn a = xs.splitOn a ++ ys.splitOn a := by
  induction xs with
  | nil => simp [List.splitOn_cons_eq_if_modifyHead]
  | cons x xs ih =>
    rw [List.cons_append, List.splitOn_cons_eq_if_modifyHead, List.splitOn_cons_eq_if_modifyHead,
      ih]
    split
    · rfl
    · obtain ⟨first, rest, hpieces⟩ := List.exists_cons_of_ne_nil (List.splitOn_ne_nil a xs)
      rw [hpieces]
      rfl

end Pieces

/-- Joined texts hold a character only if the separator or one of them does. -/
theorem not_mem_intercalate {c : Char} {separator : String} {texts : List String}
    (hseparator : c ∉ separator.toList) (h : ∀ text ∈ texts, c ∉ text.toList) :
    c ∉ (separator.intercalate texts).toList := by
  induction texts with
  | nil => exact List.not_mem_nil
  | cons text rest ih =>
    rw [List.forall_mem_cons] at h
    cases rest with
    | nil =>
      rw [String.intercalate_singleton]
      exact h.1
    | cons text' rest =>
      simp only [String.intercalate_cons_cons, String.toList_append, List.mem_append, not_or]
      exact ⟨⟨h.1, hseparator⟩, ih h.2⟩

/-! ### Lines put together -/

/-- A text that is put together from lines begins with the first one. -/
theorem unlines_cons (text : String) (texts : List String) :
    Text.unlines (text :: texts) = text ++ "\n" ++ Text.unlines texts := by
  rw [Text.unlines, Text.unlines, List.map_cons, String.join_cons]

/-- Texts that are put together from lines go one after the other. -/
theorem unlines_append (texts texts' : List String) :
    Text.unlines (texts ++ texts') = Text.unlines texts ++ Text.unlines texts' := by
  rw [Text.unlines, Text.unlines, Text.unlines, List.map_append, String.join_append]

/-- Texts that are joined by line feeds are lines, up to the last line feed. -/
theorem unlines_eq_intercalate (text : String) (texts : List String) :
    Text.unlines (text :: texts) = "\n".intercalate (text :: texts) ++ "\n" := by
  induction texts generalizing text with
  | nil => rw [unlines_cons, String.intercalate_singleton]; exact String.append_empty
  | cons text' texts ih =>
    rw [unlines_cons, ih, String.intercalate_cons_cons]
    simp only [String.append_assoc]

/-- A text that is put together from texts is split where they are, and behind each of them. -/
theorem splitOn_unlines_eq_flatMap (texts : List String) :
    (Text.unlines texts).toList.splitOn '\n'
      = texts.flatMap (fun text => text.toList.splitOn '\n') ++ [[]] := by
  induction texts with
  | nil => rfl
  | cons text texts ih =>
    have htext : (Text.unlines (text :: texts)).toList
        = text.toList ++ '\n' :: (Text.unlines texts).toList := by
      rw [unlines_cons, String.toList_append, String.toList_append, List.append_assoc]
      rfl
    rw [htext, splitOn_append_cons, ih, List.flatMap_cons, List.append_assoc]

/-- A text that is put together from lines is split into them. -/
theorem splitOn_unlines {texts : List String} (h : ∀ text ∈ texts, '\n' ∉ text.toList) :
    (Text.unlines texts).toList.splitOn '\n' = texts.map String.toList ++ [[]] := by
  have hpieces : texts.flatMap (fun text => text.toList.splitOn '\n')
      = texts.map String.toList := by
    rw [List.map_eq_flatMap]
    exact List.flatMap_congr fun text htext => List.splitOn_eq_singleton (h text htext)
  rw [splitOn_unlines_eq_flatMap, hpieces]

/-! ### Lines read -/

/-- The lines of a text that is put together from lines are these lines. -/
theorem lines_unlines {texts : List String} (hfeed : ∀ text ∈ texts, '\n' ∉ text.toList)
    (hreturn : ∀ text ∈ texts, text.toList.getLast? ≠ some '\r') :
    Text.lines (Text.unlines texts) = texts := by
  rw [Text.lines, splitOn_unlines hfeed]
  -- The empty piece behind the last line feed is no line.
  have hpieces : Text.linesOfPieces (texts.map String.toList ++ [[]])
      = texts.map String.toList := by
    clear hfeed
    induction texts with
    | nil => rfl
    | cons text texts ih =>
      rw [List.forall_mem_cons] at hreturn
      have hrest : texts.map String.toList ++ [[]] ≠ [] := by simp
      obtain ⟨next, rest, heq⟩ := List.exists_cons_of_ne_nil hrest
      show Text.linesOfPieces (text.toList :: (texts.map String.toList ++ [[]])) = _
      rw [heq, Text.linesOfPieces, ← heq, ih hreturn.2, Text.dropReturn, if_neg hreturn.1]
      · rfl
      · simp
  rw [hpieces, List.map_map]
  show texts.map (fun text => String.ofList text.toList) = texts
  simp

/-- Texts without line ends are the lines of the text that is put together from them. -/
theorem lines_unlines_of_not_mem {texts : List String}
    (h : ∀ c, c = '\n' ∨ c = '\r' → ∀ text ∈ texts, c ∉ text.toList) :
    Text.lines (Text.unlines texts) = texts :=
  lines_unlines (h '\n' (Or.inl rfl)) fun text htext hlast =>
    h '\r' (Or.inr rfl) text htext (List.mem_of_getLast? hlast)

/-- Every line among pieces is a part of one of them. -/
theorem exists_piece_of_mem_lines {pieces : List (List Char)} {line : List Char}
    (h : line ∈ Text.linesOfPieces pieces) : ∃ piece ∈ pieces, line ⊆ piece := by
  induction pieces with
  | nil => cases h
  | cons first rest ih =>
    cases rest with
    | nil =>
      rw [Text.linesOfPieces] at h
      split at h
      · cases h
      · rw [List.mem_singleton.1 h]
        exact ⟨first, List.mem_cons_self, fun _ hx => hx⟩
    | cons second rest =>
      rw [Text.linesOfPieces] at h
      · rcases List.mem_cons.1 h with rfl | h
        · refine ⟨first, List.mem_cons_self, ?_⟩
          unfold Text.dropReturn
          split
          · exact List.dropLast_subset first
          · exact fun _ hx => hx
        · obtain ⟨piece, hpiece, hsub⟩ := ih h
          exact ⟨piece, List.mem_cons_of_mem first hpiece, hsub⟩
      · simp

/-- A line of a text holds no line feed. -/
theorem feed_not_mem_of_mem_lines {text line : String} (h : line ∈ Text.lines text) :
    '\n' ∉ line.toList := by
  obtain ⟨cs, hcs, rfl⟩ := List.mem_map.1 h
  obtain ⟨piece, hpiece, hsub⟩ := exists_piece_of_mem_lines hcs
  rw [String.toList_ofList]
  exact fun hfeed => not_mem_of_mem_splitOn hpiece (hsub hfeed)

end Grounder
