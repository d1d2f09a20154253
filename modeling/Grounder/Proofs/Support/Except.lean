import Mathlib.Data.List.Forall2

/-!
# `Grounder.Proofs.Support.Except`: computations that can fail

The toolchain gives `mapM` over `Except` its unfolding lemmas, but does not say what a successful
run went through. The lemmas here do, for a sequence of two steps (`bind_eq_ok`) and for a list of
them (`mapM_eq_ok`). `mapM_eq_error` says where a run stops, and `cut_of_mapM_eq_error` finds the
element at which it did, as `cut_of_foldlM_eq_error` does for a loop. `foldlM_invariant` carries
what holds of the elements done so far through a loop, `foldlM_map_eq` takes the checks out of one,
and `GoesAs` compares two runs step by step.
`forall₂_trans` chains the correspondences that such runs leave behind.

They belong to no single part of grounding, so this module sits outside their directories.
-/

set_option autoImplicit false

namespace Grounder.Proofs.Support

variable {ε α β : Type}

/-- A sequence of two steps succeeds exactly when both do. -/
theorem bind_eq_ok {x : Except ε α} {f : α → Except ε β} {b : β} :
    (x >>= f) = .ok b ↔ ∃ a, x = .ok a ∧ f a = .ok b := by
  cases x with
  | ok a => simp [Bind.bind, Except.bind]
  | error e => simp [Bind.bind, Except.bind]

/-- A sequence of two steps fails in one of them. -/
theorem bind_eq_error {x : Except ε α} {f : α → Except ε β} {e : ε} :
    (x >>= f) = .error e ↔ x = .error e ∨ ∃ a, x = .ok a ∧ f a = .error e := by
  cases x with
  | ok a => simp [Bind.bind, Except.bind]
  | error e => simp [Bind.bind, Except.bind]

/-- What is made of a result is there exactly when the result is. -/
theorem map_eq_ok {x : Except ε α} {f : α → β} {b : β} :
    x.map f = .ok b ↔ ∃ a, x = .ok a ∧ f a = b := by
  cases x with
  | ok a => simp [Except.map]
  | error e => simp [Except.map]

/-- A step that is known to succeed has a result. -/
theorem exists_eq_ok {x : Except ε α} (h : x.isOk = true) : ∃ a, x = .ok a := by
  cases x with
  | ok a => exact ⟨a, rfl⟩
  | error e => cases h

/-- What a run that succeeds yields can be computed from the run. -/
theorem feature_eq {x : Except ε α} {a : α} (h : x = .ok a) {f : α → β} {b : β}
    (hf : x.toOption.map f = some b) : f a = b := by
  rw [h] at hf
  exact Option.some.inj hf

/-- A step over a list succeeds exactly when it does at every element, and the results are those
of the elements. -/
theorem mapM_eq_ok {f : α → Except ε β} {xs : List α} {ys : List β} :
    xs.mapM f = .ok ys ↔ List.Forall₂ (fun x y => f x = .ok y) xs ys := by
  induction xs generalizing ys with
  | nil =>
    rw [List.mapM_nil, List.forall₂_nil_left_iff]
    constructor
    · intro h
      cases h
      rfl
    · rintro rfl
      rfl
  | cons x xs ih =>
    rw [List.mapM_cons, bind_eq_ok]
    constructor
    · rintro ⟨y, hy, h⟩
      obtain ⟨rest, hrest, h⟩ := bind_eq_ok.1 h
      cases h
      exact .cons hy (ih.1 hrest)
    · rintro (_ | ⟨hy, hrest⟩)
      exact ⟨_, hy, bind_eq_ok.2 ⟨_, ih.2 hrest, rfl⟩⟩

/-- A step that succeeds at every element of a list succeeds over the list. -/
theorem mapM_eq_map {f : α → Except ε β} {g : α → β} {xs : List α}
    (h : ∀ x ∈ xs, f x = .ok (g x)) : xs.mapM f = .ok (xs.map g) := by
  rw [mapM_eq_ok, List.forall₂_map_right_iff, List.forall₂_same]
  exact h

/-- If a step succeeds at every element of a list, it succeeds over the list. -/
theorem exists_mapM_eq_ok {f : α → Except ε β} {xs : List α} (h : ∀ x ∈ xs, ∃ y, f x = .ok y) :
    ∃ ys, xs.mapM f = .ok ys := by
  induction xs with
  | nil => exact ⟨[], rfl⟩
  | cons x xs ih =>
    obtain ⟨y, hy⟩ := h x List.mem_cons_self
    obtain ⟨ys, hys⟩ := ih fun x' hx' => h x' (List.mem_cons_of_mem x hx')
    refine ⟨y :: ys, ?_⟩
    rw [List.mapM_cons, hy, hys]
    rfl

/-- What is made of each result of a step over a list can be made of the list of results. -/
theorem mapM_map_result {γ : Type} (f : α → Except ε β) (g : β → γ) (xs : List α) :
    (xs.mapM fun x => (f x).map g) = (xs.mapM f).map (List.map g) := by
  induction xs with
  | nil => rfl
  | cons x xs ih =>
    rw [List.mapM_cons, List.mapM_cons, ih]
    cases f x with
    | error e => rfl
    | ok y => cases xs.mapM f <;> rfl

/-- A step over a list fails with the error of the first element at which it fails. -/
theorem mapM_eq_error {f : α → Except ε β} {before after : List α} {x : α} {e : ε}
    (hbefore : ∀ x ∈ before, ∃ y, f x = .ok y) (h : f x = .error e) :
    (before ++ x :: after).mapM f = .error e := by
  induction before with
  | nil =>
    rw [List.nil_append, List.mapM_cons, h]
    rfl
  | cons first before ih =>
    obtain ⟨y, hy⟩ := hbefore first List.mem_cons_self
    have hrest := ih fun x hx => hbefore x (List.mem_cons_of_mem first hx)
    rw [List.cons_append, List.mapM_cons, hy, hrest]
    rfl

/-- If a step over a list fails, it does so at an element, after it succeeded at those before. -/
theorem cut_of_mapM_eq_error {f : α → Except ε β} {xs : List α} {e : ε}
    (h : xs.mapM f = .error e) : ∃ before x after, xs = before ++ x :: after ∧
      (∀ x' ∈ before, ∃ y, f x' = .ok y) ∧ f x = .error e := by
  induction xs with
  | nil => cases h
  | cons x xs ih =>
    rw [List.mapM_cons, bind_eq_error] at h
    rcases h with h | ⟨y, hy, h⟩
    · exact ⟨[], x, xs, rfl, by simp, h⟩
    · rcases bind_eq_error.1 h with h | ⟨ys, -, h⟩
      · obtain ⟨before, x', after, rfl, hbefore, hfails⟩ := ih h
        exact ⟨x :: before, x', after, rfl, List.forall_mem_cons.2 ⟨⟨y, hy⟩, hbefore⟩, hfails⟩
      · cases h

/-- If a step over a list fails, it does so at an element. -/
theorem exists_of_mapM_eq_error {f : α → Except ε β} {xs : List α} {e : ε}
    (h : xs.mapM f = .error e) : ∃ x ∈ xs, f x = .error e := by
  obtain ⟨before, x, after, rfl, -, hfails⟩ := cut_of_mapM_eq_error h
  exact ⟨x, List.mem_append_right before List.mem_cons_self, hfails⟩

/-- If a loop fails, it does so at an element, in the state that those before lead to. -/
theorem cut_of_foldlM_eq_error {f : β → α → Except ε β} {xs : List α} {b : β} {e : ε}
    (h : xs.foldlM f b = .error e) : ∃ before x after c, xs = before ++ x :: after ∧
      before.foldlM f b = .ok c ∧ f c x = .error e := by
  induction xs generalizing b with
  | nil => cases h
  | cons x xs ih =>
    rw [List.foldlM_cons, bind_eq_error] at h
    rcases h with h | ⟨next, hnext, h⟩
    · exact ⟨[], x, xs, b, rfl, rfl, h⟩
    · obtain ⟨before, x', after, c, rfl, hbefore, hfails⟩ := ih h
      refine ⟨x :: before, x', after, c, rfl, ?_, hfails⟩
      rw [List.foldlM_cons, hnext]
      exact hbefore

/-- A loop that checks one element after another, and takes in what each check finds, is the check of
all elements, and then the loop over what was found. -/
theorem foldlM_map_eq {γ : Type} (check : α → Except ε β) (step : γ → β → γ) (xs : List α)
    (c : γ) :
    xs.foldlM (fun c x => (check x).map (step c)) c
      = (xs.mapM check).map fun found => found.foldl step c := by
  induction xs generalizing c with
  | nil => rfl
  | cons x xs ih =>
    rw [List.foldlM_cons, List.mapM_cons]
    cases check x with
    | error e => rfl
    | ok b =>
      show xs.foldlM _ (step c b) = Except.map _ (xs.mapM check >>= fun found => .ok (b :: found))
      rw [ih]
      cases xs.mapM check <;> rfl

/-- What holds at the beginning of a loop and is kept by every step that succeeds holds at its end.
It may speak of the elements that the loop has gone through. -/
theorem foldlM_invariant {f : β → α → Except ε β} {P : List α → β → Prop} {b b' : β}
    {xs : List α} (hnil : P [] b)
    (hstep : ∀ done x c c', x ∈ xs → P done c → f c x = .ok c' → P (done ++ [x]) c')
    (h : xs.foldlM f b = .ok b') : P xs b' := by
  suffices hgen : ∀ done rest, rest ⊆ xs → ∀ c, P done c → rest.foldlM f c = .ok b' →
      P (done ++ rest) b' from hgen [] xs (fun _ hx => hx) b hnil h
  intro done rest hsub
  induction rest generalizing done with
  | nil =>
    intro c hc hfold
    cases hfold
    rw [List.append_nil]
    exact hc
  | cons x rest ih =>
    intro c hc hfold
    rw [List.foldlM_cons] at hfold
    obtain ⟨c', hx, hfold⟩ := bind_eq_ok.1 hfold
    have hmem : x ∈ xs := hsub List.mem_cons_self
    rw [List.append_cons]
    exact ih _ (fun _ hy => hsub (List.mem_cons_of_mem x hy)) c' (hstep done x c c' hmem hc hx)
      hfold

/-- One run goes as another: they have results that are related, or the same error. The first run
may also fail in a way of its own, and then nothing is said of the other one. -/
inductive GoesAs {γ : Type} (R : β → γ → Prop) (own : ε → Prop) :
    Except ε β → Except ε γ → Prop where
  | ok {b : β} {c : γ} (h : R b c) : GoesAs R own (.ok b) (.ok c)
  | same (e : ε) : GoesAs R own (.error e) (.error e)
  | fails {e : ε} (h : own e) (x : Except ε γ) : GoesAs R own (.error e) x

namespace GoesAs

variable {γ δ : Type} {R : β → γ → Prop} {own : ε → Prop}

/-- If the first run has a result, the other one has a result that is related to it. -/
theorem of_ok {b : β} {y : Except ε γ} (h : GoesAs R own (.ok b) y) : ∃ c, y = .ok c ∧ R b c := by
  cases h with
  | ok h => exact ⟨_, rfl, h⟩

/-- If the first run fails, it does so in a way of its own, or the other one fails alike. -/
theorem of_error {e : ε} {y : Except ε γ} (h : GoesAs R own (.error e) y) :
    y = .error e ∨ own e := by
  cases h with
  | same => exact .inl rfl
  | fails h => exact .inr h

/-- A way to fail of its own may be described more broadly. -/
theorem mono {own' : ε → Prop} {x : Except ε β} {y : Except ε γ} (h : GoesAs R own x y)
    (hown : ∀ e, own e → own' e) : GoesAs R own' x y := by
  cases h with
  | ok h => exact .ok h
  | same e => exact .same e
  | fails h y => exact .fails (hown _ h) y

/-- Sequences go alike if their first steps do and their second steps do from related results. -/
theorem bind {S : α → δ → Prop} {x : Except ε β} {y : Except ε γ} {f : β → Except ε α}
    {g : γ → Except ε δ} (h : GoesAs R own x y)
    (hf : ∀ b c, x = .ok b → R b c → GoesAs S own (f b) (g c)) :
    GoesAs S own (x >>= f) (y >>= g) := by
  cases h with
  | ok h => exact hf _ _ rfl h
  | same e => exact .same e
  | fails h y => exact .fails h _

/-- Steps over a list go alike if they do at every element. -/
theorem mapM {f : α → Except ε β} {g : α → Except ε γ} {xs : List α}
    (h : ∀ x ∈ xs, GoesAs R own (f x) (g x)) :
    GoesAs (List.Forall₂ R) own (xs.mapM f) (xs.mapM g) := by
  induction xs with
  | nil => exact .ok .nil
  | cons x xs ih =>
    rw [List.forall_mem_cons] at h
    rw [List.mapM_cons, List.mapM_cons]
    refine h.1.bind fun b c _ hfirst => (ih h.2).bind fun bs cs _ hrest => ?_
    exact .ok (.cons hfirst hrest)

/-- Loops go alike if every step keeps related states related. -/
theorem foldlM {f : β → α → Except ε β} {g : γ → α → Except ε γ} {xs : List α}
    (hstep : ∀ x ∈ xs, ∀ b c, R b c → GoesAs R own (f b x) (g c x)) {b : β} {c : γ} (h : R b c) :
    GoesAs R own (xs.foldlM f b) (xs.foldlM g c) := by
  induction xs generalizing b c with
  | nil => exact .ok h
  | cons x xs ih =>
    rw [List.forall_mem_cons] at hstep
    rw [List.foldlM_cons, List.foldlM_cons]
    exact (hstep.1 b c h).bind fun b' c' _ h' => ih hstep.2 h'

end GoesAs

/-- Lists that correspond to a third one, element by element, correspond to each other. -/
theorem forall₂_trans {γ : Type} {R : α → β → Prop} {S : γ → β → Prop} {T : α → γ → Prop}
    (h : ∀ a b c, R a b → S c b → T a c) {xs : List α} {ys : List β} {zs : List γ}
    (hxy : List.Forall₂ R xs ys) (hzy : List.Forall₂ S zs ys) : List.Forall₂ T xs zs := by
  induction hxy generalizing zs with
  | nil =>
    cases hzy
    exact .nil
  | cons hab _ ih =>
    cases hzy with
    | cons hcb hrest => exact .cons (h _ _ _ hab hcb) (ih hrest)

/-- Lists whose members agree in a feature, one by one, agree in the list of the feature. -/
theorem map_eq_map {γ : Type} {f : α → γ} {g : β → γ} {xs : List α} {ys : List β}
    (h : List.Forall₂ (fun x y => f x = g y) xs ys) : xs.map f = ys.map g := by
  induction h with
  | nil => rfl
  | cons hxy _ ih => rw [List.map_cons, List.map_cons, hxy, ih]

/-- In a list that corresponds to another one, every member has a counterpart there. -/
theorem exists_counterpart {R : α → β → Prop} {xs : List α} {ys : List β}
    (h : List.Forall₂ R xs ys) {y : β} (hy : y ∈ ys) : ∃ x ∈ xs, R x y := by
  induction h with
  | nil => cases hy
  | cons hxy _ ih =>
    rcases List.mem_cons.1 hy with rfl | hy
    · exact ⟨_, List.mem_cons_self, hxy⟩
    · obtain ⟨x, hx, hR⟩ := ih hy
      exact ⟨x, List.mem_cons_of_mem _ hx, hR⟩

end Grounder.Proofs.Support
