import Grounder.Output.Manifest
import Grounder.Proofs.Support.Lists
import Grounder.Proofs.Text.ByteOrder
import Mathlib.Data.List.Nodup

/-!
# `Grounder.Proofs.Output.Search`: artifacts in order, and found by halves

A set of artifacts sorts them by name and keeps those of one name in the order in which they were
made. `ArtifactSet.get?` looks through all of them. A program that relies on the order halves the
artifacts that are left until one remains, and compares bytes (`search?`). It finds the same
artifact, the last one of several with the name (`search?_eq`), because the order of the names is
that of their bytes.

What halving keeps is stated in `narrow?_spec`: the artifact at the lower end does not come behind
the name, unless it is the first one of all, and everything above the upper end does.

`sorted_and_found` collects what holds for every list of artifacts. If their names are different,
the order in which they were made makes no difference to the set and its manifest.
-/

set_option autoImplicit false

namespace Grounder

namespace ArtifactSet

open Proofs.Support

/-! ### Halving -/

/-- Narrows `size` artifacts from `base` on to one of them. It keeps the upper half unless the
first artifact there comes behind the name, and ends with nothing if an access is out of range. -/
def narrow? (artifacts : List Artifact) (name : String) (base size : Nat) : Option Nat :=
  if size ≤ 1 then some base
  else
    match artifacts[base + size / 2]? with
    | none => none
    | some middle =>
      if utf8Bytes name < utf8Bytes middle.name then narrow? artifacts name base (size - size / 2)
      else narrow? artifacts name (base + size / 2) (size - size / 2)
termination_by size

/-- The artifact of that name, if there is one among those of a set. The search ends with nothing at
all if an access is out of range. -/
def search? (set : ArtifactSet) (name : String) : Option (Option Artifact) :=
  if set.size = 0 then some none
  else do
    let i ← narrow? set.artifacts name 0 set.size
    let a ← set.artifacts[i]?
    return if utf8Bytes a.name = utf8Bytes name then some a else none

/-- The artifacts from a place on do not come in front of one at that place or before it. -/
theorem le_of_mem_drop {artifacts : List Artifact}
    (hsorted : artifacts.Pairwise fun a b => a.name ≤ b.name) {i k : Nat} {a b : Artifact}
    (ha : artifacts[i]? = some a) (hik : i ≤ k) (hb : b ∈ artifacts.drop k) : a.name ≤ b.name := by
  obtain ⟨hi, rfl⟩ := List.getElem?_eq_some_iff.1 ha
  have hmem : b ∈ artifacts.drop i := List.drop_subset_drop_left artifacts hik hb
  rw [List.drop_eq_getElem_cons hi] at hmem
  rcases List.mem_cons.1 hmem with rfl | hmem
  · exact String.le_refl _
  · have htail : (artifacts[i] :: artifacts.drop (i + 1)).Pairwise fun a b => a.name ≤ b.name := by
      rw [← List.drop_eq_getElem_cons hi]
      exact hsorted.drop
    exact (List.pairwise_cons.1 htail).1 b hmem

/-- Narrowing ends at an artifact that is the first one or does not come behind the name, and all
artifacts after it do. -/
theorem narrow?_spec {artifacts : List Artifact} (name : String)
    (hsorted : artifacts.Pairwise fun a b => a.name ≤ b.name) {base size : Nat} (hsize : 0 < size)
    (hrange : base + size ≤ artifacts.length)
    (hlow : base = 0 ∨ ∃ a, artifacts[base]? = some a ∧ a.name ≤ name)
    (hhigh : ∀ b ∈ artifacts.drop (base + size), name < b.name) :
    ∃ i, narrow? artifacts name base size = some i ∧ i < artifacts.length ∧
      (i = 0 ∨ ∃ a, artifacts[i]? = some a ∧ a.name ≤ name) ∧
      ∀ b ∈ artifacts.drop (i + 1), name < b.name := by
  induction size using Nat.strongRecOn generalizing base with
  | ind size ih =>
    rw [narrow?]
    by_cases hone : size ≤ 1
    · obtain rfl : size = 1 := by omega
      rw [if_pos hone]
      exact ⟨base, rfl, by omega, hlow, hhigh⟩
    · have hmiddle : base + size / 2 < artifacts.length := by omega
      rw [if_neg hone, List.getElem?_eq_getElem hmiddle]
      simp only [utf8Bytes_lt_iff]
      split
      · -- The middle and all artifacts above it come behind the name.
        rename_i hbehind
        refine ih (size - size / 2) (by omega) (by omega) (by omega) hlow fun b hb => ?_
        have hle := le_of_mem_drop hsorted (List.getElem?_eq_getElem hmiddle) (by omega) hb
        exact Std.lt_of_lt_of_le hbehind hle
      · rename_i hbehind
        refine ih (size - size / 2) (by omega) (by omega) (by omega)
          (Or.inr ⟨_, List.getElem?_eq_getElem hmiddle, String.not_lt.1 hbehind⟩) fun b hb => ?_
        have hend : base + size / 2 + (size - size / 2) = base + size := by omega
        exact hhigh b (hend ▸ hb)

/-- Where narrowing ends, there is the last artifact with the name, if there is one at all. -/
theorem find?_reverse_eq {artifacts : List Artifact} {name : String}
    (hsorted : artifacts.Pairwise fun a b => a.name ≤ b.name) {i : Nat} {a : Artifact}
    (ha : artifacts[i]? = some a) (hlow : i = 0 ∨ a.name ≤ name)
    (hhigh : ∀ b ∈ artifacts.drop (i + 1), name < b.name) :
    artifacts.reverse.find? (·.name = name) = if a.name = name then some a else none := by
  have hsplit : artifacts = artifacts.take i ++ a :: artifacts.drop (i + 1) := by
    obtain ⟨hi, rfl⟩ := List.getElem?_eq_some_iff.1 ha
    rw [← List.drop_eq_getElem_cons hi, List.take_append_drop]
  have habove (b : Artifact) (hb : b ∈ artifacts.drop (i + 1)) : b.name ≠ name :=
    fun heq => String.lt_irrefl _ (heq ▸ hhigh b hb)
  by_cases hname : a.name = name
  · have hnone : (artifacts.drop (i + 1)).reverse.find? (·.name = name) = none :=
      List.find?_eq_none.2 fun b hb => by simpa using habove b (List.mem_reverse.1 hb)
    rw [if_pos hname, hsplit, List.reverse_append, List.reverse_cons, List.find?_append,
      List.find?_append, hnone]
    simp [hname]
  · -- It stands between those in front of it and the name, so one of them with the name would
    -- give it the same name.
    have hbelow : ∀ b ∈ artifacts.take i, b.name ≠ name := by
      rintro b hb rfl
      rcases hlow with rfl | hle
      · cases hb
      · rw [hsplit, List.pairwise_append] at hsorted
        exact hname (String.le_antisymm hle (hsorted.2.2 b hb a List.mem_cons_self))
    rw [if_neg hname, List.find?_eq_none]
    intro b hb
    rw [List.mem_reverse, hsplit, List.mem_append, List.mem_cons] at hb
    simp only [decide_eq_true_eq]
    rcases hb with hb | rfl | hb
    · exact hbelow b hb
    · exact hname
    · exact habove b hb

/-! ### Sorted sets -/

/-- A set holds the artifacts it was made of. -/
theorem mem_ofList {artifacts : List Artifact} {a : Artifact} :
    a ∈ (ofList artifacts).artifacts ↔ a ∈ artifacts :=
  (List.mergeSort_perm _ _).mem_iff

/-- The names in a set are those of the artifacts it was made of. -/
theorem names_ofList (artifacts : List Artifact) :
    (ofList artifacts).names.Perm (artifacts.map (·.name)) :=
  (List.mergeSort_perm _ _).map _

/-- The artifacts of a set are in the order of their names. -/
theorem pairwise_name_le (artifacts : List Artifact) :
    (ofList artifacts).artifacts.Pairwise fun a b => a.name ≤ b.name :=
  pairwise_le_mergeSort_key (·.name) artifacts

/-- Halving finds the artifact that looking through all of them finds, and no access is out of
range. -/
theorem search?_eq (artifacts : List Artifact) (name : String) :
    (ofList artifacts).search? name = some ((ofList artifacts).get? name) := by
  have hsorted := pairwise_name_le artifacts
  generalize ofList artifacts = set at hsorted
  rw [search?, get?]
  by_cases hempty : set.size = 0
  · rw [if_pos hempty, List.length_eq_zero_iff.1 hempty]
    rfl
  · obtain ⟨i, hnarrow, hi, hlow, hhigh⟩ := narrow?_spec name hsorted
      (Nat.pos_of_ne_zero hempty) (by rw [Nat.zero_add]; exact Nat.le_refl _) (Or.inl rfl)
      (by simp [size])
    have ha := List.getElem?_eq_getElem hi
    have hlow : i = 0 ∨ set.artifacts[i].name ≤ name := by
      simpa [ha] using hlow
    rw [if_neg hempty, hnarrow, find?_reverse_eq hsorted ha hlow hhigh]
    simp [ha, utf8Bytes_inj]

/-! ### Artifacts by name -/

/-- The artifact that is found under a name is one of those with the name. -/
theorem mem_of_get?_ofList {artifacts : List Artifact} {name : String} {a : Artifact}
    (h : (ofList artifacts).get? name = some a) : a ∈ artifacts ∧ a.name = name :=
  ⟨mem_ofList.1 (List.mem_reverse.1 (List.mem_of_find?_eq_some h)),
    by simpa using List.find?_some h⟩

/-- An artifact is found under a name if there is one with the name. -/
theorem exists_get?_ofList_iff {artifacts : List Artifact} {name : String} :
    (∃ a, (ofList artifacts).get? name = some a) ↔ ∃ a ∈ artifacts, a.name = name := by
  constructor
  · rintro ⟨a, ha⟩
    exact ⟨a, mem_of_get?_ofList ha⟩
  · rintro ⟨a, ha, hname⟩
    have hmem : a ∈ (ofList artifacts).artifacts.reverse := List.mem_reverse.2 (mem_ofList.2 ha)
    rw [← Option.isSome_iff_exists, get?, List.find?_isSome]
    exact ⟨a, hmem, decide_eq_true hname⟩

/-- The only artifact of a name is found under that name. -/
theorem get?_ofList {artifacts : List Artifact} {a : Artifact} (ha : a ∈ artifacts)
    (honly : ∀ b ∈ artifacts, b.name = a.name → b = a) :
    (ofList artifacts).get? a.name = some a := by
  obtain ⟨b, hb⟩ := exists_get?_ofList_iff.2 ⟨a, ha, rfl⟩
  obtain ⟨hmem, hname⟩ := mem_of_get?_ofList hb
  rw [hb, honly b hmem hname]

/-- If names are different, the order in which the artifacts were made makes no difference. -/
theorem ofList_eq_of_perm {artifacts artifacts' : List Artifact}
    (hnodup : (artifacts.map (·.name)).Nodup) (hperm : artifacts'.Perm artifacts) :
    ofList artifacts' = ofList artifacts := by
  have hsets : (ofList artifacts').artifacts.Perm (ofList artifacts).artifacts :=
    (List.mergeSort_perm _ _).trans (hperm.trans (List.mergeSort_perm _ _).symm)
  refine congrArg ArtifactSet.mk (hsets.eq_of_pairwise (fun a b ha hb hab hba => ?_)
    (pairwise_name_le artifacts') (pairwise_name_le artifacts))
  exact List.inj_on_of_nodup_map hnodup (hperm.mem_iff.1 (mem_ofList.1 ha)) (mem_ofList.1 hb)
    (String.le_antisymm hab hba)

/-- A set is a stable permutation of the artifacts that it was made of, in the order of the bytes of
their names. An artifact is found under a name exactly if there is one with the name, it has that
name, and halving finds it without an access out of range. If names are different, all orders in
which the artifacts were made lead to the same set, and to the same manifest up to the time. -/
theorem sorted_and_found (artifacts : List Artifact) :
    (ofList artifacts).artifacts.Perm artifacts ∧
    (ofList artifacts).artifacts.Pairwise (fun a b => utf8Bytes a.name ≤ utf8Bytes b.name) ∧
    (∀ name, (ofList artifacts).artifacts.filter (·.name = name) =
      artifacts.filter (·.name = name)) ∧
    (∀ name, ((∃ a, (ofList artifacts).get? name = some a) ↔ ∃ a ∈ artifacts, a.name = name) ∧
      (∀ a, (ofList artifacts).get? name = some a → a ∈ artifacts ∧ a.name = name) ∧
      (ofList artifacts).search? name = some ((ofList artifacts).get? name)) ∧
    ((artifacts.map (·.name)).Nodup → ∀ artifacts', artifacts'.Perm artifacts →
      ofList artifacts' = ofList artifacts ∧
      ∀ time time', (ofList artifacts').manifest time' =
        { (ofList artifacts).manifest time with generatedAt := time' }) := by
  refine ⟨List.mergeSort_perm _ _, ?_, filter_mergeSort_key (·.name) artifacts,
    fun name => ⟨exists_get?_ofList_iff, fun a => mem_of_get?_ofList, search?_eq artifacts name⟩,
    fun hnodup artifacts' hperm => ?_⟩
  · simp only [utf8Bytes_le_iff]
    exact pairwise_name_le artifacts
  · have hset := ofList_eq_of_perm hnodup hperm
    exact ⟨hset, fun time time' => by rw [hset, manifest, manifest]⟩

/-- The names of two artifacts differ, so the order in which they were made does not matter. -/
theorem sorted_and_found_accented :
    (["état.data", "zone.data"]).Nodup ∧
      ofList [⟨"état.data", "2"⟩, ⟨"zone.data", "1"⟩] =
        ofList [⟨"zone.data", "1"⟩, ⟨"état.data", "2"⟩] := by
  have hnodup : (["état.data", "zone.data"]).Nodup := by decide
  exact ⟨hnodup, (((sorted_and_found [⟨"état.data", "2"⟩, ⟨"zone.data", "1"⟩]).2.2.2.2 hnodup
    [⟨"zone.data", "1"⟩, ⟨"état.data", "2"⟩] (.swap _ _ _)).1).symm⟩

end ArtifactSet

end Grounder
