/-!
# `Grounder.Proofs.Support.Decimal`: the texts of numbers

The toolchain writes a number as its digits, and an integer as a minus, if it needs one, and digits.
Readers that tell what is in front of them by its first character go by how these texts begin.
-/

set_option autoImplicit false

namespace Grounder.Proofs.Support

/-- The text of a number is its digits. -/
theorem toList_toString (n : Nat) : (toString n).toList = Nat.toDigits 10 n := by
  rw [Nat.toString_eq_ofList_toDigits, String.toList_ofList]

/-- The text of a negative integer is a minus and the text of a number. -/
theorem toList_toString_negSucc (n : Nat) :
    (toString (Int.negSucc n)).toList = '-' :: (toString (n + 1)).toList := by
  show ("-" ++ toString (n + 1)).toList = _
  rw [String.toList_append]
  rfl

/-- The text of a number holds nothing but digits. -/
theorem not_mem_toString (n : Nat) {c : Char} (hc : c.isDigit = false) :
    c ∉ (toString n).toList := by
  intro h
  rw [toList_toString] at h
  exact Bool.false_ne_true
    (hc.symm.trans (Nat.isDigit_of_mem_toDigits (by decide) (by decide) h))

/-- The text of an integer holds nothing but digits and a minus. -/
theorem not_mem_toString_int (n : Int) {c : Char} (hc : c.isDigit = false) (hminus : c ≠ '-') :
    c ∉ (toString n).toList := by
  cases n with
  | ofNat n => exact not_mem_toString n hc
  | negSucc n =>
    rw [toList_toString_negSucc, List.mem_cons, not_or]
    exact ⟨hminus, not_mem_toString (n + 1) hc⟩

/-- The text of a number begins with a digit. -/
theorem head_toString (n : Nat) :
    ∃ d digits, (toString n).toList = d :: digits ∧ d.isDigit = true := by
  obtain ⟨d, digits, h⟩ := List.exists_cons_of_ne_nil (Nat.toDigits_ne_nil (n := n) (b := 10))
  refine ⟨d, digits, (toList_toString n).trans h, ?_⟩
  exact Nat.isDigit_of_mem_toDigits (b := 10) (n := n) (by decide) (by decide) (by simp [h])

/-- The text of an integer begins with a digit or a minus. -/
theorem head_toString_int (n : Int) :
    ∃ d digits, (toString n).toList = d :: digits ∧ (d.isDigit = true ∨ d = '-') := by
  cases n with
  | ofNat n =>
    obtain ⟨d, digits, h, hd⟩ := head_toString n
    exact ⟨d, digits, h, Or.inl hd⟩
  | negSucc n => exact ⟨'-', _, toList_toString_negSucc n, Or.inr rfl⟩

end Grounder.Proofs.Support
