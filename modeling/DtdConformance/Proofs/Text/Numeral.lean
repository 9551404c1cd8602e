import DtdConformance.Text.Integer

/-! # Decimal numerals

A number that is written in decimal digits has itself as the value of these digits.
-/
namespace DtdConformance.Text
set_option autoImplicit false

theorem digitValue?_digitChar : ∀ d < 10, digitValue? (Nat.digitChar d) = some d := by
  decide

theorem isDigit_of_mem_toDigits {n : Nat} {c : Char} (h : c ∈ Nat.toDigits 10 n) :
    isDigit c = true := by
  induction n using Nat.strongRecOn with
  | ind n ih =>
    have hDigit (d : Nat) (hSmall : d < 10) : isDigit (Nat.digitChar d) = true := by
      rw [isDigit, digitValue?_digitChar d hSmall]
      rfl
    by_cases hSmall : n < 10
    · rw [Nat.toDigits_of_lt_base hSmall, List.mem_singleton] at h
      rw [h]
      exact hDigit n hSmall
    · rw [Nat.toDigits_of_base_le (by decide) (by omega), List.mem_append,
        List.mem_singleton] at h
      rcases h with hFront | hLast
      · exact ih (n / 10) (by omega) hFront
      · rw [hLast]
        exact hDigit (n % 10) (by omega)

/-- Digits that follow go on from the number that has been read. -/
theorem digitsValue?_toDigits_append (n : Nat) (afterDigit : Bool) (cs : List Char) :
    digitsValue? afterDigit 0 (Nat.toDigits 10 n ++ cs) = digitsValue? true n cs := by
  have hCons (value d : Nat) (hSmall : d < 10) (afterDigit : Bool) (cs : List Char) :
      digitsValue? afterDigit value (Nat.digitChar d :: cs) =
        digitsValue? true (10 * value + d) cs := by
    rw [digitsValue?, digitValue?_digitChar d hSmall]
  induction n using Nat.strongRecOn generalizing cs with
  | ind n ih =>
    by_cases hSmall : n < 10
    · rw [Nat.toDigits_of_lt_base hSmall, List.singleton_append, hCons 0 n hSmall, Nat.mul_zero,
        Nat.zero_add]
    · have hValue : 10 * (n / 10) + n % 10 = n := by omega
      rw [Nat.toDigits_of_base_le (by decide) (by omega), List.append_assoc,
        ih (n / 10) (by omega), List.singleton_append, hCons _ _ (by omega), hValue]

theorem digitsValue?_toDigits (n : Nat) : digitsValue? false 0 (Nat.toDigits 10 n) = some n := by
  have hDigits := digitsValue?_toDigits_append n false []
  rw [List.append_nil] at hDigits
  rw [hDigits]
  rfl

end DtdConformance.Text
