import Mathlib.Algebra.BigOperators.Group.List.Basic
import Mathlib.Data.List.Forall2
import Mathlib.Logic.Function.Iterate

namespace RatboxServices

/-! Odometers: counters whose digits each have a base of their own. The digit
that moves first stands first. -/

namespace Odometer

def Proper : List Nat → List Nat → Prop :=
  List.Forall₂ fun base digit => digit < base

def zeros (bases : List Nat) : List Nat :=
  bases.map fun _ => 0

def value : List Nat → List Nat → Nat
  | base :: bases, digit :: digits => digit + base * value bases digits
  | _, _ => 0

def advance : List Nat → List Nat → List Nat
  | base :: bases, digit :: digits =>
      if digit + 1 < base then (digit + 1) :: digits
      else 0 :: advance bases digits
  | _, _ => []

def reading (bases : List Nat) (moves : Nat) : List Nat :=
  (advance bases)^[moves] (zeros bases)

variable {bases digits : List Nat} {moves other : Nat}

@[simp] theorem reading_zero : reading bases 0 = zeros bases := rfl

theorem reading_succ :
    reading bases (moves + 1) = advance bases (reading bases moves) :=
  Function.iterate_succ_apply' _ _ _

theorem proper_zeros (positive : ∀ base ∈ bases, 0 < base) :
    Proper bases (zeros bases) := by
  induction bases with
  | nil => exact .nil
  | cons base bases ih =>
      exact .cons (positive base (by simp))
        (ih fun other listed => positive other (by simp [listed]))

theorem Proper.lt_of_le {limit : Nat} (proper : Proper bases digits)
    (most : ∀ base ∈ bases, base ≤ limit) :
    ∀ digit ∈ digits, digit < limit := by
  induction proper with
  | nil =>
      intro digit listed
      cases listed
  | cons below _ ih =>
      intro digit listed
      obtain rfl | listed := List.mem_cons.mp listed
      · exact Nat.lt_of_lt_of_le below (most _ (by simp))
      · exact ih (fun base inside => most base (by simp [inside])) digit listed

theorem Proper.advance (proper : Proper bases digits) :
    Proper bases (advance bases digits) := by
  induction proper with
  | nil => exact .nil
  | cons below rest ih =>
      rw [Odometer.advance]
      split
      · rename_i next
        exact .cons next rest
      · exact .cons (Nat.zero_lt_of_lt below) ih

theorem proper_reading (positive : ∀ base ∈ bases, 0 < base) (moves : Nat) :
    Proper bases (reading bases moves) := by
  induction moves with
  | zero => exact proper_zeros positive
  | succ moves ih =>
      rw [reading_succ]
      exact ih.advance

@[simp] theorem value_zeros (bases : List Nat) :
    value bases (zeros bases) = 0 := by
  induction bases with
  | nil => rfl
  | cons base bases ih =>
      change 0 + base * value bases (zeros bases) = 0
      rw [ih, Nat.mul_zero]

theorem value_advance (proper : Proper bases digits)
    (room : value bases digits + 1 < bases.prod) :
    value bases (advance bases digits) = value bases digits + 1 := by
  induction proper with
  | nil => simp [value] at room
  | @cons base digit bases digits below rest ih =>
      rw [advance]
      split
      · simp only [value]
        omega
      · -- The digit is the largest, and what is left of the room is above it.
        have last : digit + 1 = base := by omega
        simp only [value, List.prod_cons] at room ⊢
        have carried : base * (value bases digits + 1) < base * bases.prod := by
          rw [Nat.mul_add, Nat.mul_one]
          omega
        rw [ih (Nat.lt_of_mul_lt_mul_left carried), Nat.mul_add, Nat.mul_one]
        omega

theorem value_reading (positive : ∀ base ∈ bases, 0 < base)
    (within : moves < bases.prod) :
    value bases (reading bases moves) = moves := by
  induction moves with
  | zero => exact value_zeros bases
  | succ moves ih =>
      have counted := ih (by omega)
      have proper := proper_reading positive moves
      rw [reading_succ, value_advance proper (by omega), counted]

theorem reading_injective (positive : ∀ base ∈ bases, 0 < base)
    (left : moves < bases.prod) (right : other < bases.prod)
    (same : reading bases moves = reading bases other) : moves = other := by
  rw [← value_reading positive left, ← value_reading positive right, same]

end Odometer

end RatboxServices
