import Grounder.Json.Decoder
import Grounder.Proofs.Json.RoundTrip
import Grounder.Task.Encode

/-!
# `Grounder.Proofs.Json.Decoder`: what is read survives being written

A value that a decoder reads may leave fields out that have defaults, give them by position, or name
things in other ways than the writer does. So writing what was read does not give the same value
back. It gives a value that the decoder reads as the same (`Rewrites`), within the same limit on
nesting.

The limit makes the difference. A default that is written down takes a level of nesting that it did
not take before, so a field can only survive where a level is left for its default
(`Record.survives_optional`).
-/

set_option autoImplicit false

namespace Grounder.Json

/-! ### Values that fit -/

/-- A value that can be printed without a loss and read within a limit on nesting. -/
structure Fits (nesting : Nat) (v : Value) : Prop where
  readable : v.isReadable nesting = true
  plain : v.IsPlain

@[simp]
theorem fits_string (nesting : Nat) (s : String) : Fits nesting (.string s) := ⟨rfl, trivial⟩

@[simp]
theorem fits_bool (nesting : Nat) (b : Bool) : Fits nesting (.bool b) := ⟨rfl, trivial⟩

/-- An array fits if a level is left for it and its items fit one level further in. -/
theorem fits_array {nesting : Nat} {vs : List Value} (hn : 0 < nesting)
    (h : ∀ v ∈ vs, Fits (nesting - 1) v) : Fits nesting (.array vs) := by
  have hitems : areReadable (nesting - 1) vs = true ∧ ArePlain vs := by
    induction vs with
    | nil => exact ⟨rfl, trivial⟩
    | cons v vs ih =>
      rw [List.forall_mem_cons] at h
      obtain ⟨hreadable, hplain⟩ := ih h.2
      exact ⟨by rw [areReadable, h.1.readable, hreadable]; rfl, h.1.plain, hplain⟩
  exact ⟨by rw [Value.isReadable, hitems.1, decide_eq_true hn]; rfl, hitems.2⟩

/-- An object fits if a level is left for it and its members fit one level further in. -/
theorem fits_object {nesting : Nat} {ms : List (String × Value)} (hn : 0 < nesting)
    (h : ∀ m ∈ ms, Fits (nesting - 1) m.2) : Fits nesting (.object ms) := by
  have hmembers : membersAreReadable (nesting - 1) ms = true ∧ MembersArePlain ms := by
    induction ms with
    | nil => exact ⟨rfl, trivial⟩
    | cons m ms ih =>
      rw [List.forall_mem_cons] at h
      obtain ⟨hreadable, hplain⟩ := ih h.2
      exact ⟨by rw [membersAreReadable, h.1.readable, hreadable]; rfl, h.1.plain, hplain⟩
  exact ⟨by rw [Value.isReadable, hmembers.1, decide_eq_true hn]; rfl, hmembers.2⟩

/-- An object fits with a further text among its members. -/
theorem fits_object_cons {nesting : Nat} {ms : List (String × Value)}
    (h : Fits nesting (.object ms)) (name s : String) :
    Fits nesting (.object ((name, .string s) :: ms)) := by
  refine ⟨?_, trivial, h.plain⟩
  have hreadable := h.readable
  rw [Value.isReadable] at hreadable ⊢
  rw [membersAreReadable]
  exact hreadable

/-- An optional member fits if its value does where it is there. -/
theorem fits_member? {α : Type} {f : α → Value} {nesting : Nat} {x : Option α}
    (h : ∀ y ∈ x, Fits nesting (f y)) (name : String) :
    ∀ m ∈ Value.member? name (x.map f), Fits nesting m.2 := by
  intro m hm
  cases x with
  | none => cases hm
  | some y =>
    obtain rfl := List.mem_singleton.1 hm
    exact h y rfl

/-! ### Surviving -/

section Survives

variable {α : Type} {d : Decoder α} {f : α → Value} {nesting : Nat}

/-- What is written for `x` fits and is read as `x`. -/
structure Survives (d : Decoder α) (f : α → Value) (nesting : Nat) (x : α) : Prop where
  decodes : d nesting (f x) = some x
  fits : Fits nesting (f x)

/-- Whatever a decoder reads survives. -/
def Rewrites (d : Decoder α) (f : α → Value) (nesting : Nat) : Prop :=
  ∀ v x, d nesting v = some x → Survives d f nesting x

@[simp]
theorem decodes_string (nesting : Nat) (s : String) : Decoder.string nesting (.string s) = some s :=
  rfl

@[simp]
theorem decodes_bool (nesting : Nat) (b : Bool) : Decoder.bool nesting (.bool b) = some b := rfl

theorem survives_string (nesting : Nat) (s : String) : Survives .string .string nesting s :=
  ⟨rfl, fits_string nesting s⟩

/-- A list survives if its members do, one level further in. -/
theorem survives_list {xs : List α} (hn : 0 < nesting)
    (h : ∀ x ∈ xs, Survives d f (nesting - 1) x) : Survives (.list d) (.ofList f) nesting xs := by
  obtain ⟨nesting, rfl⟩ : ∃ n, nesting = n + 1 := ⟨nesting - 1, by omega⟩
  rw [Nat.add_sub_cancel] at h
  refine ⟨?_, fits_array hn ?_⟩
  · show (xs.map f).mapM (d nesting) = some xs
    induction xs with
    | nil => rfl
    | cons x xs ih =>
      rw [List.forall_mem_cons] at h
      rw [List.map_cons, List.mapM_cons, h.1.decodes, ih h.2]
      rfl
  · intro v hv
    obtain ⟨x, hx, rfl⟩ := List.mem_map.1 hv
    exact (h x hx).fits

/-- What a step over a list gives are results of the step. -/
theorem exists_of_mem_mapM {β : Type} {g : β → Option α} {ys : List β} {xs : List α}
    (h : ys.mapM g = some xs) : ∀ x ∈ xs, ∃ y, g y = some x := by
  induction ys generalizing xs with
  | nil =>
    cases h
    intro x hx
    cases hx
  | cons y ys ih =>
    rw [List.mapM_cons, Option.bind_eq_bind, Option.bind_eq_some_iff] at h
    obtain ⟨first, hfirst, h⟩ := h
    obtain ⟨rest, hrest, h⟩ := Option.bind_eq_some_iff.1 h
    cases h
    exact List.forall_mem_cons.2 ⟨⟨y, hfirst⟩, ih hrest⟩

/-- The members of a list that is read are read one level further in. -/
theorem forall_mem_of_list {v : Value} {xs : List α} (h : Decoder.list d nesting v = some xs) :
    0 < nesting ∧ ∀ x ∈ xs, ∃ v, d (nesting - 1) v = some x := by
  cases nesting with
  | zero => cases v <;> cases h
  | succ nesting =>
    cases v with
    | array items =>
      have hitems : items.mapM (d nesting) = some xs := h
      exact ⟨Nat.succ_pos nesting, exists_of_mem_mapM hitems⟩
    | _ => cases h

/-- A list that is read survives if whatever is read one level further in does. -/
theorem rewrites_list (h : Rewrites d f (nesting - 1)) :
    Rewrites (.list d) (.ofList f) nesting := by
  intro v xs hxs
  obtain ⟨hn, hmem⟩ := forall_mem_of_list hxs
  refine survives_list hn fun x hx => ?_
  obtain ⟨v, hv⟩ := hmem x hx
  exact h v x hv

/-! ### Fields of records -/

namespace Record

variable {n : Nat} {name other : String} {v : Value} {fields : List (String × Value)}

/-- The first field of a name is the one that is read. -/
@[simp]
theorem required_cons_self (d : Decoder α) :
    (⟨n, (name, v) :: fields⟩ : Record).required name d = d n v := by
  rw [required, List.lookup_cons_self, Option.bind_some]

/-- A field of another name is passed over. -/
@[simp]
theorem required_cons_of_ne (h : name ≠ other) (d : Decoder α) :
    (⟨n, (other, v) :: fields⟩ : Record).required name d
      = (⟨n, fields⟩ : Record).required name d := by
  rw [required, List.lookup_cons, beq_false_of_ne h]
  rfl

/-- The first field of a name is the one that is read. -/
@[simp]
theorem optional_cons_self (d : Decoder α) (default : α) :
    (⟨n, (name, v) :: fields⟩ : Record).optional name d default = d n v := by
  rw [optional, List.lookup_cons_self]

/-- A field of another name is passed over. -/
@[simp]
theorem optional_cons_of_ne (h : name ≠ other) (d : Decoder α) (default : α) :
    (⟨n, (other, v) :: fields⟩ : Record).optional name d default
      = (⟨n, fields⟩ : Record).optional name d default := by
  rw [optional, List.lookup_cons, beq_false_of_ne h]
  rfl

/-- A field that is left out has its default. -/
@[simp]
theorem optional_nil (d : Decoder α) (default : α) :
    (⟨n, []⟩ : Record).optional name d default = some default := rfl

variable {r : Record}

/-- A field that has to be there survives. -/
theorem survives_required {x : α} (h : r.required name d = some x)
    (hd : Rewrites d f r.nesting) : Survives d f r.nesting x := by
  obtain ⟨v, -, hv⟩ := Option.bind_eq_some_iff.1 h
  exact hd v x hv

/-- A field with a default survives where its default does. -/
theorem survives_optional {x default : α} (h : r.optional name d default = some x)
    (hd : Rewrites d f r.nesting) (hdefault : Survives d f r.nesting default) :
    Survives d f r.nesting x := by
  rw [optional] at h
  split at h
  · rename_i v _
    exact hd v x h
  · cases h
    exact hdefault

/-- A list that may be left out survives where a level is left for it. -/
theorem survives_optional_list {xs : List α} (h : r.optional name (.list d) [] = some xs)
    (hn : 0 < r.nesting) (hd : Rewrites d f (r.nesting - 1)) :
    Survives (.list d) (.ofList f) r.nesting xs :=
  survives_optional h (rewrites_list hd) (survives_list hn fun _ hx => absurd hx List.not_mem_nil)

/-- A field that may be left out or `null` survives if it is there. -/
theorem survives_nullable {x : Option α} (h : r.optional name (.nullable d) none = some x)
    (hd : Rewrites d f r.nesting) : ∀ y ∈ x, Survives d f r.nesting y := by
  rw [optional] at h
  split at h
  · rename_i v _
    intro y hy
    cases hy
    -- A value that is not `null` is read by the decoder itself.
    rw [Decoder.nullable.eq_def] at h
    split at h
    · cases h
    · obtain ⟨_, hread, heq⟩ := Option.map_eq_some_iff.1 h
      cases heq
      exact hd _ y hread
  · cases h
    intro y hy
    cases hy

/-- A field that may be left out or `null` gives what was written there, or nothing if nothing
was. -/
theorem optional_nullable {x : Option α} (hlookup : r.fields.lookup name = x.map f)
    (hnull : ∀ y, f y ≠ .null) (hx : ∀ y ∈ x, Survives d f r.nesting y) :
    r.optional name (.nullable d) none = some x := by
  rw [optional, hlookup]
  cases x with
  | none => rfl
  | some y =>
    show Decoder.nullable d r.nesting (f y) = some (some y)
    rw [Decoder.nullable.eq_2 _ _ _ (hnull y), (hx y rfl).decodes, Option.map_some]

/-- An object is read as the record of its members, if its keys are field names in their order. -/
theorem of?_object {names : List String} {ms : List (String × Value)} (hn : 0 < nesting)
    (hnames : names.Nodup) (hkeys : (ms.map Prod.fst).Sublist names) :
    of? names nesting (.object ms) = some ⟨nesting - 1, ms⟩ := by
  have hfilter : (ms.filter fun m => names.contains m.1) = ms := by
    refine List.filter_eq_self.2 fun m hm => List.contains_iff_mem.2 ?_
    exact hkeys.subset (List.mem_map_of_mem hm)
  rw [of?, hfilter, if_pos ⟨hn, hnames.sublist hkeys⟩]

/-- A record's fields are read one level further in. -/
theorem nesting_of_of? {names : List String} {v : Value} (h : of? names nesting v = some r) :
    0 < nesting ∧ r.nesting = nesting - 1 := by
  rw [of?.eq_def] at h
  split at h
  · simp only at h
    split at h
    · rename_i hn
      cases h
      exact ⟨hn.1, rfl⟩
    · cases h
  · split at h
    · rename_i hn
      cases h
      exact ⟨hn.1, rfl⟩
    · cases h
  · cases h

end Record

end Survives

/-! ### Values that name their kind -/

/-- A value that names its kind is entered. -/
theorem pos_of_tagged? {byPosition : Bool} {kinds : List String} {nesting : Nat} {v rest : Value}
    {kind : String} (h : tagged? byPosition kinds nesting v = some (kind, rest)) : 0 < nesting := by
  rw [tagged?.eq_def] at h
  split at h
  · rename_i hreadable
    cases v with
    | array items =>
      rw [Value.isReadable, Bool.and_eq_true] at hreadable
      exact of_decide_eq_true hreadable.1
    | object members =>
      rw [Value.isReadable, Bool.and_eq_true] at hreadable
      exact of_decide_eq_true hreadable.1
    | _ => cases h
  · cases h

/-- An object that names its kind first is read as the record of its other members. -/
theorem tagged?_object (byPosition : Bool) {kinds : List String} {nesting : Nat} {kind : String}
    {ms : List (String × Value)} (hkind : kind ∈ kinds) (hms : ∀ m ∈ ms, m.1 ≠ "kind")
    (hfits : Fits nesting (.object ms)) :
    tagged? byPosition kinds nesting (.object (("kind", .string kind) :: ms))
      = some (kind, .object ms) := by
  have hothers : (ms.filter fun m => m.1 = "kind") = [] := by
    rw [List.filter_eq_nil_iff]
    intro m hm h
    exact hms m hm (of_decide_eq_true h)
  have hkinds : ((("kind", Value.string kind) :: ms).filter fun m => m.1 = "kind")
      = [("kind", .string kind)] := by
    rw [List.filter_cons, if_pos (by simp), hothers]
  have hrest : ((("kind", Value.string kind) :: ms).filter fun m => m.1 ≠ "kind") = ms := by
    rw [List.filter_cons, if_neg (by simp)]
    exact List.filter_eq_self.2 fun m hm => decide_eq_true (hms m hm)
  have hkind' : kind? byPosition kinds (.string kind) = some kind :=
    if_pos (List.contains_iff_mem.2 hkind)
  rw [tagged?, if_pos (fits_object_cons hfits "kind" kind).readable, hkinds, hrest]
  simp only [hkind', Option.map_some]

end Grounder.Json
