import Mathlib.Algebra.Group.Nat.Defs
import Mathlib.Data.List.Induction

namespace RatboxServices

/-! Numerals: the value of digits in a base, read from the left. -/

def numeral (base : Nat) (init : Nat) (digits : List Nat) : Nat :=
  digits.foldl (fun value digit => value * base + digit) init

section Numeral

variable {base init : Nat}

@[simp] theorem numeral_nil : numeral base init [] = init := rfl

@[simp] theorem numeral_cons (digit : Nat) (digits : List Nat) :
    numeral base init (digit :: digits) =
      numeral base (init * base + digit) digits := rfl

theorem numeral_append_singleton (digits : List Nat) (digit : Nat) :
    numeral base init (digits ++ [digit]) =
      numeral base init digits * base + digit := by
  simp [numeral]

theorem le_numeral (positive : 0 < base) (digits : List Nat) :
    init ≤ numeral base init digits := by
  induction digits generalizing init with
  | nil => exact Nat.le_refl _
  | cons digit digits ih =>
      have step : init ≤ init * base + digit :=
        Nat.le_trans (Nat.le_mul_of_pos_right _ positive) (Nat.le_add_right _ _)
      exact Nat.le_trans step ih

theorem numeral_lt_pow {larger : Nat} (atMost : base ≤ larger)
    (positive : 0 < base) {digits : List Nat} (proper : ∀ d ∈ digits, d < base)
    {places : Nat} (short : numeral base 0 digits < base ^ places) :
    numeral larger 0 digits < larger ^ places := by
  induction digits using List.reverseRecOn generalizing places with
  | nil => exact Nat.pow_pos (Nat.lt_of_lt_of_le positive atMost)
  | append_singleton digits digit ih =>
      rw [numeral_append_singleton] at short ⊢
      have last : digit < base := proper digit (by simp)
      have others : ∀ d ∈ digits, d < base :=
        fun d listed => proper d (by simp [listed])
      cases places with
      | zero =>
          rw [Nat.pow_zero] at short ⊢
          have none_ : numeral base 0 digits < base ^ 0 := by
            rw [Nat.pow_zero]
            by_contra some_
            have more : base ≤ numeral base 0 digits * base :=
              Nat.le_mul_of_pos_left _ (by omega)
            omega
          have rest := ih others none_
          rw [Nat.pow_zero] at rest
          have zero : numeral larger 0 digits = 0 := by omega
          rw [zero, Nat.zero_mul]
          omega
      | succ places =>
          have fewer : numeral base 0 digits < base ^ places := by
            by_contra many
            have more : base ^ places * base ≤ numeral base 0 digits * base :=
              Nat.mul_le_mul_right _ (by omega)
            rw [Nat.pow_succ] at short
            omega
          have rest : numeral larger 0 digits + 1 ≤ larger ^ places :=
            ih others fewer
          have scaled := Nat.mul_le_mul_right larger rest
          rw [Nat.add_mul, Nat.one_mul] at scaled
          rw [Nat.pow_succ]
          omega

end Numeral

end RatboxServices
