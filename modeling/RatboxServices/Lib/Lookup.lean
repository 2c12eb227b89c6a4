import Mathlib.Data.List.Basic

namespace RatboxServices

/-! Looking up the only element that has a property. -/

section TheOnly

variable {α : Type} {P : α → Prop} {list : List α} {test : α → Bool}

def TheOnly (P : α → Prop) : Option α → Prop
  | some a => P a ∧ ∀ b, P b → b = a
  | none => ∀ a, ¬P a

namespace TheOnly

theorem eq_some_iff {result : Option α} (only : TheOnly P result) (a : α) :
    result = some a ↔ P a := by
  cases result with
  | none =>
      constructor
      · intro found
        cases found
      · intro holds
        exact absurd holds (only a)
  | some b =>
      constructor
      · intro found
        cases found
        exact only.1
      · intro holds
        rw [only.2 a holds]

theorem unique {left right : Option α} (first : TheOnly P left)
    (second : TheOnly P right) : left = right := by
  apply Option.ext
  intro a
  rw [first.eq_some_iff, second.eq_some_iff]

theorem find (holds : ∀ a, P a ↔ a ∈ list ∧ test a = true)
    (one : ∀ a b, P a → P b → a = b) : TheOnly P (list.find? test) := by
  cases found : list.find? test with
  | none =>
      intro a has
      obtain ⟨listed, passes⟩ := (holds a).mp has
      exact List.find?_eq_none.mp found a listed passes
  | some a =>
      have has : P a := (holds a).mpr
        ⟨List.mem_of_find?_eq_some found, List.find?_some found⟩
      exact ⟨has, fun b other => one b a other has⟩

end TheOnly

end TheOnly

end RatboxServices
