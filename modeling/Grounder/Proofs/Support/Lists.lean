import Grounder.Proofs.Support.Except
import Mathlib.Algebra.GroupWithZero.Nat
import Mathlib.Data.List.Induction
import Mathlib.Data.List.Nodup
import Mathlib.Data.List.Perm.Basic

/-!
# `Grounder.Proofs.Support.Lists`: members of lists

A key that occurs once has one element (`filter_eq_singleton`), positions of distinct elements are
looked up by elements (`idxOf?_eq_some_of_nodup`), elements can be counted key by key
(`sum_countP_key`), repetitions are left out from the end (`eraseDups_concat`) so that the first
occurrences keep their order (`pairwise_eraseDups`), a sort by a key keeps the order of members with
the same key (`pairwise_mergeSort_key`), and lists that a feature tells apart are disjoint
(`disjoint_of_feature`).

Two runs of a program often agree on most of their results. `Shares` says which results of two lists
may be their own, and leaves the order aside. What is made of the same parts in the same way is
shared (`shares_of_mapM`), and lists that are put together share what their parts do
(`Shares.append`).

They belong to no single part of grounding, so this module sits outside their directories.
-/

set_option autoImplicit false

namespace Grounder.Proofs.Support

variable {α β ε : Type}

/-- If the key of an element occurs once, the element is the only one with this key. -/
theorem filter_eq_singleton [DecidableEq β] {key : α → β} {xs : List α} {x : α} (hx : x ∈ xs)
    (hcount : (xs.map key).count (key x) = 1) : xs.filter (key · = key x) = [x] := by
  have hlength : (xs.filter (key · = key x)).length = 1 := by
    rw [← hcount, List.count, List.countP_map, ← List.countP_eq_length_filter]
    exact List.countP_congr fun y _ => by simp
  obtain ⟨y, hy⟩ := List.length_eq_one_iff.1 hlength
  have hmem : x ∈ xs.filter (key · = key x) := List.mem_filter.2 ⟨hx, decide_eq_true rfl⟩
  rw [hy, List.mem_singleton] at hmem
  rw [hy, hmem]

/-- In a list without repetitions, an element is looked up at its position. -/
theorem idxOf?_eq_some_of_nodup [DecidableEq α] {xs : List α} (hnodup : xs.Nodup) {x : α}
    {i : Nat} : xs.idxOf? x = some i ↔ xs[i]? = some x := by
  rw [List.idxOf?_eq_some_iff]
  constructor
  · rintro ⟨hlt, hget, -⟩
    rw [List.getElem?_eq_getElem hlt, hget]
  · intro hget
    obtain ⟨hlt, hget⟩ := List.getElem?_eq_some_iff.1 hget
    refine ⟨hlt, hget, fun j hj hother => ?_⟩
    -- No other element is the same, so no earlier one is.
    have heq : j = i := hnodup.getElem_inj_iff.1 (hother.trans hget.symm)
    omega

/-- A new last element is looked up behind all others, and these where they were. -/
theorem idxOf?_concat [DecidableEq α] {xs : List α} {x : α} (hx : x ∉ xs) (y : α) :
    (xs ++ [x]).idxOf? y = if x = y then some xs.length else xs.idxOf? y := by
  show (xs ++ [x]).findIdx? (· == y) = if x = y then some xs.length else xs.findIdx? (· == y)
  rw [List.findIdx?_append]
  by_cases hy : x = y
  · subst hy
    have hnone : xs.findIdx? (· == x) = none :=
      List.findIdx?_eq_none_iff.2 fun z hz => beq_false_of_ne fun h => hx (h ▸ hz)
    simp [hnone]
  · simp [hy]

/-- The last of distinct elements is none of those before it. -/
theorem not_mem_of_nodup_concat {xs : List α} {x : α} (h : (xs ++ [x]).Nodup) : x ∉ xs :=
  fun hmem => (List.nodup_append.1 h).2.2 x hmem x (List.mem_singleton_self x) rfl

section Positions

variable [DecidableEq α] [Hashable α] {xs : List α} {x : α} {positions : Std.HashMap α Nat}

/-- A map of the positions in a list has the elements of the list. -/
theorem contains_positions_iff (h : ∀ y, positions[y]? = xs.idxOf? y) :
    positions.contains x = true ↔ x ∈ xs := by
  rw [← List.isSome_idxOf?, ← h, Std.HashMap.isSome_getElem?_eq_contains]

/-- A new last element is put into the map with the position behind all others. -/
theorem getElem?_insert_positions (h : ∀ y, positions[y]? = xs.idxOf? y) (hx : x ∉ xs) (y : α) :
    (positions.insert x xs.length)[y]? = (xs ++ [x]).idxOf? y := by
  rw [Std.HashMap.getElem?_insert, h, idxOf?_concat hx]
  simp

end Positions

/-- The elements that have one of several different keys can be counted key by key. -/
theorem sum_countP_key [DecidableEq β] {key : α → β} {keys : List β} (hnodup : keys.Nodup)
    (xs : List α) :
    (keys.map fun k => xs.countP (key · = k)).sum = xs.countP (key · ∈ keys) := by
  induction keys with
  | nil => simp
  | cons k keys ih =>
    obtain ⟨hk, hnodup⟩ := List.nodup_cons.1 hnodup
    rw [List.map_cons, List.sum_cons, ih hnodup]
    clear ih
    -- No element has both this key and one of the others, so nothing counts twice.
    induction xs with
    | nil => rfl
    | cons x xs ih =>
      rw [List.countP_cons, List.countP_cons, List.countP_cons, ← ih]
      by_cases hx : key x = k
      · simp only [hx, hk, List.mem_cons, decide_true, decide_false, true_or, if_true,
          Bool.false_eq_true, if_false]
        omega
      · simp only [hx, List.mem_cons, decide_false, false_or, Bool.false_eq_true, if_false]
        omega

/-- A last element is a further one unless it occurred before. -/
theorem eraseDups_concat [DecidableEq α] (xs : List α) (x : α) :
    (xs ++ [x]).eraseDups = if x ∈ xs then xs.eraseDups else xs.eraseDups ++ [x] := by
  rw [List.eraseDups_append, List.removeAll, List.filter_singleton]
  by_cases hx : x ∈ xs
  · simp [hx]
  · simp [hx, List.eraseDups_cons]

/-- A list without repetitions is left as it is. -/
theorem eraseDups_of_nodup [DecidableEq α] {xs : List α} (h : xs.Nodup) : xs.eraseDups = xs := by
  induction xs using List.reverseRecOn with
  | nil => rfl
  | append_singleton xs x ih =>
    rw [eraseDups_concat, if_neg (not_mem_of_nodup_concat h), ih (List.nodup_append.1 h).1]

/-- There are no more members without repetitions. -/
theorem length_eraseDups_le [DecidableEq α] (xs : List α) : xs.eraseDups.length ≤ xs.length := by
  induction xs using List.reverseRecOn with
  | nil => exact Nat.le_refl _
  | append_singleton xs x ih =>
    rw [eraseDups_concat, List.length_append]
    split
    · exact Nat.le_add_right_of_le ih
    · rw [List.length_append]
      exact Nat.add_le_add_right ih _

/-- The first member with a feature is the same without repetitions. -/
theorem find?_eraseDups [DecidableEq α] (p : α → Bool) (xs : List α) :
    xs.eraseDups.find? p = xs.find? p := by
  induction xs using List.reverseRecOn with
  | nil => rfl
  | append_singleton xs x ih =>
    rw [eraseDups_concat]
    split
    · rename_i hx
      rw [ih, List.find?_append]
      cases hfind : xs.find? p with
      | some y => rfl
      | none => simp [List.find?_eq_none.1 hfind x hx]
    · rw [List.find?_append, List.find?_append, ih]

/-- Without repetitions, members come in the order in which they first occur. -/
theorem pairwise_eraseDups [DecidableEq α] (xs : List α) :
    xs.eraseDups.Pairwise fun x y => xs.idxOf x < xs.idxOf y := by
  induction xs using List.reverseRecOn with
  | nil => exact .nil
  | append_singleton xs x ih =>
    have hfront : xs.eraseDups.Pairwise fun y z => (xs ++ [x]).idxOf y < (xs ++ [x]).idxOf z := by
      refine ih.imp_of_mem fun {y z} hy hz h => ?_
      rwa [List.idxOf_append_of_mem (List.mem_eraseDups.1 hy),
        List.idxOf_append_of_mem (List.mem_eraseDups.1 hz)]
    rw [eraseDups_concat]
    split
    · exact hfront
    · rename_i hx
      refine List.pairwise_append.2 ⟨hfront, List.pairwise_singleton _ x, fun y hy z hz => ?_⟩
      rw [List.mem_eraseDups] at hy
      rw [List.mem_singleton.1 hz, List.idxOf_append_of_mem hy, List.idxOf_append_of_notMem hx]
      exact Nat.lt_add_right _ (List.idxOf_lt_length_of_mem hy)

section SortByKey

variable {κ : Type} [LE κ] [DecidableLE κ] [Std.IsLinearOrder κ] (key : α → κ)

/-- Elements that go in front of each other by their keys go so along chains. -/
theorem le_key_trans (x y z : α) (hxy : decide (key x ≤ key y) = true)
    (hyz : decide (key y ≤ key z) = true) : decide (key x ≤ key z) = true :=
  decide_eq_true (Std.le_trans (of_decide_eq_true hxy) (of_decide_eq_true hyz))

/-- Of two elements, one goes in front of the other by its key. -/
theorem le_key_total (x y : α) : (decide (key x ≤ key y) || decide (key y ≤ key x)) = true := by
  simpa using Std.le_total (a := key x) (b := key y)

/-- A sort by a key puts the keys in order. -/
theorem pairwise_le_mergeSort_key (xs : List α) :
    (xs.mergeSort fun x y => key x ≤ key y).Pairwise fun x y => key x ≤ key y :=
  (List.pairwise_mergeSort (le_key_trans key) (le_key_total key) xs).imp of_decide_eq_true

/-- Members with the same key come in the same order after a sort by the key. -/
theorem filter_mergeSort_key [DecidableEq κ] (xs : List α) (k : κ) :
    (xs.mergeSort fun x y => key x ≤ key y).filter (key · = k) = xs.filter (key · = k) := by
  have hsublist : (xs.filter (key · = k)).Sublist (xs.mergeSort fun x y => key x ≤ key y) := by
    refine List.sublist_mergeSort (le_key_trans key) (le_key_total key) ?_ List.filter_sublist
    -- All of these keys are the same, so none of them has to go in front of another one.
    refine List.pairwise_of_forall_mem_list fun x hx y hy => ?_
    simp only [List.mem_filter, decide_eq_true_eq] at hx hy ⊢
    exact Std.le_of_eq (hx.2.trans hy.2.symm)
  have hfilter := hsublist.filter (key · = k)
  simp only [List.filter_filter, Bool.and_self] at hfilter
  exact (hfilter.eq_of_length ((List.mergeSort_perm xs _).filter _).length_eq.symm).symm

/-- A sort by a key keeps the order of the members whose keys are the same. -/
theorem pairwise_mergeSort_key [LT κ] [Std.LawfulOrderLT κ] [DecidableEq κ] {R : α → α → Prop}
    {xs : List α} (h : xs.Pairwise R) :
    (xs.mergeSort fun x y => key x ≤ key y).Pairwise fun x y =>
      key x < key y ∨ key x = key y ∧ R x y := by
  have hsorted := pairwise_le_mergeSort_key key xs
  rw [List.pairwise_iff_forall_sublist] at hsorted h ⊢
  intro x y hxy
  by_cases hne : key x ≠ key y
  · exact Or.inl (Std.lt_of_le_of_ne (hsorted hxy) hne)
  have heq : key x = key y := Decidable.not_not.1 hne
  refine Or.inr ⟨heq, h ?_⟩
  have hfilter := hxy.filter (key · = key y)
  have hpair : [x, y].filter (key · = key y) = [x, y] := by simp [heq]
  rw [filter_mergeSort_key, hpair] at hfilter
  exact hfilter.trans List.filter_sublist

end SortByKey

/-- If all members of a list have a feature, and none of another list has it, no member is in
both. -/
theorem disjoint_of_feature {f : α → β} {b : β} {xs ys : List α} (hxs : ∀ x ∈ xs, f x = b)
    (hys : ∀ y ∈ ys, f y ≠ b) : xs.Disjoint ys :=
  fun x hx hy => hys x hy (hxs x hx)

/-- Two lists have the same members, as often, apart from some of the left list that are `own` and
some of the right list that are `own'`. -/
def Shares (own own' : α → Prop) (xs ys : List α) : Prop :=
  ∃ shared left right, xs.Perm (shared ++ left) ∧ ys.Perm (shared ++ right) ∧
    (∀ x ∈ left, own x) ∧ ∀ y ∈ right, own' y

variable {own own' : α → Prop} {xs ys : List α}

/-- A list shares all members with itself. -/
theorem Shares.refl (xs : List α) : Shares own own' xs xs :=
  ⟨xs, [], [], by rw [List.append_nil], by rw [List.append_nil], by simp, by simp⟩

/-- Lists need not share what may be their own. -/
theorem shares_of_own (hxs : ∀ x ∈ xs, own x) (hys : ∀ y ∈ ys, own' y) : Shares own own' xs ys :=
  ⟨[], xs, ys, .refl _, .refl _, hxs, hys⟩

/-- The parts of two lists can be put together by kind. -/
theorem perm_append_by_kind (as bs as' bs' : List α) :
    ((as ++ bs) ++ (as' ++ bs')).Perm ((as ++ as') ++ (bs ++ bs')) := by
  rw [List.append_assoc, List.append_assoc]
  exact (List.perm_append_comm_assoc bs as' bs').append_left as

/-- Lists that are put together share what their parts share. -/
theorem Shares.append {xs' ys' : List α} (h : Shares own own' xs ys)
    (h' : Shares own own' xs' ys') : Shares own own' (xs ++ xs') (ys ++ ys') := by
  obtain ⟨shared, left, right, hx, hy, hleft, hright⟩ := h
  obtain ⟨shared', left', right', hx', hy', hleft', hright'⟩ := h'
  refine ⟨shared ++ shared', left ++ left', right ++ right', ?_, ?_, ?_, ?_⟩
  · exact (hx.append hx').trans (perm_append_by_kind ..)
  · exact (hy.append hy').trans (perm_append_by_kind ..)
  · exact List.forall_mem_append.2 ⟨hleft, hleft'⟩
  · exact List.forall_mem_append.2 ⟨hright, hright'⟩

/-- The order of members does not matter. -/
theorem Shares.of_perm {xs' ys' : List α} (hx : xs'.Perm xs) (hy : ys'.Perm ys)
    (h : Shares own own' xs ys) : Shares own own' xs' ys' := by
  obtain ⟨shared, left, right, hxs, hys, hleft, hright⟩ := h
  exact ⟨shared, left, right, hx.trans hxs, hy.trans hys, hleft, hright⟩

/-- Two runs over the same list share the results of the elements at which they do the same. -/
theorem shares_of_mapM {f f' : β → Except ε α} {P : β → Prop} {bs : List β}
    (hxs : bs.mapM f = .ok xs) (hys : bs.mapM f' = .ok ys)
    (hsame : ∀ b ∈ bs, ¬ P b → f' b = f b)
    (hown : ∀ b ∈ bs, P b → ∀ x, f b = .ok x → own x)
    (hown' : ∀ b ∈ bs, P b → ∀ y, f' b = .ok y → own' y) : Shares own own' xs ys := by
  rw [mapM_eq_ok] at hxs hys
  induction hxs generalizing ys with
  | nil =>
    cases hys
    exact .refl []
  | @cons b x _ _ hx _ ih =>
    -- The two results for the first element are their own, or they are the same.
    obtain ⟨y, rest, hy, hrest, rfl⟩ := List.forall₂_cons_left_iff.1 hys
    rw [List.forall_mem_cons] at hsame hown hown'
    have hfirst : Shares own own' [x] [y] := by
      by_cases hP : P b
      · refine shares_of_own ?_ ?_
        · rw [List.forall_mem_singleton]
          exact hown.1 hP x hx
        · rw [List.forall_mem_singleton]
          exact hown'.1 hP y hy
      · rw [hsame.1 hP, hx] at hy
        cases hy
        exact .refl [x]
    exact hfirst.append (ih hrest hsame.2 hown.2 hown'.2)

end Grounder.Proofs.Support
