import Mathlib.Order.Lattice
import Mathlib.Order.MinMax

namespace RatboxServices

/-! Merging two values where the lesser one counts and one value stands for
nothing. The value that stands for nothing is in the order as well. -/

section Choice

variable {α : Type} [LinearOrder α]

def choose (absent old new : α) : α :=
  if old = absent ∨ new < old then new else old

variable {absent old first second : α}

theorem choose_absent (new : α) : choose absent absent new = new := by
  rw [choose, if_pos (Or.inl rfl)]

theorem choose_of_ne (some_ : old ≠ absent) (new : α) :
    choose absent old new = min new old := by
  unfold choose
  by_cases less : new < old
  · rw [if_pos (Or.inr less), min_eq_left less.le]
  · rw [if_neg (by simp [some_, less]), min_eq_right (not_lt.mp less)]

theorem choose_idem (new : α) :
    choose absent (choose absent old new) new = choose absent old new := by
  by_cases taken : old = absent ∨ new < old
  · have first : choose absent old new = new := if_pos taken
    rw [first]
    simp [choose]
  · have kept : choose absent old new = old := if_neg taken
    rw [kept, kept]

theorem choose_nothing (some_ : old ≠ absent) :
    choose absent old absent = absent ↔ absent < old := by
  rw [choose_of_ne some_, min_eq_left_iff]
  exact ⟨fun le => lt_of_le_of_ne le some_.symm, le_of_lt⟩

theorem choose_comm_of_ne (someFirst : first ≠ absent)
    (someSecond : second ≠ absent) :
    choose absent (choose absent old first) second =
      choose absent (choose absent old second) first := by
  by_cases none_ : old = absent
  · subst none_
    rw [choose_absent, choose_absent, choose_of_ne someFirst,
      choose_of_ne someSecond, min_comm]
  · have kept : ∀ new : α, new ≠ absent → choose absent old new ≠ absent := by
      intro new some_
      unfold choose
      split
      · exact some_
      · exact none_
    rw [choose_of_ne (kept first someFirst), choose_of_ne (kept second someSecond),
      choose_of_ne none_, choose_of_ne none_, min_left_comm]

theorem choose_comm_nothing (new : α) :
    choose absent (choose absent old absent) new =
      choose absent (choose absent old new) absent ↔
    (absent ≤ old → new ≤ absent) := by
  by_cases none_ : old = absent
  · subst none_
    rw [choose_absent, choose_absent]
    by_cases same : new = old
    · simp [same, choose_absent]
    · simp [choose_of_ne same]
  · rw [choose_of_ne none_, choose_of_ne none_]
    by_cases below : absent < old
    · rw [min_eq_left below.le, choose_absent]
      by_cases same : new = absent
      · simp [same, choose_absent, min_eq_left below.le]
      · have some_ : min new old ≠ absent := by
          intro equal
          rcases min_choice new old with left | right
          · exact same (left.symm.trans equal)
          · exact none_ (right.symm.trans equal)
        rw [choose_of_ne some_]
        constructor
        · intro equal _
          rw [equal]
          exact min_le_left _ _
        · intro less
          have le : new ≤ absent := less below.le
          rw [min_eq_left (le.trans below.le), min_eq_right le]
    · have above : old < absent := lt_of_le_of_ne (not_lt.mp below) none_
      have kept : min new old ≠ absent :=
        (lt_of_le_of_lt (min_le_right _ _) above).ne
      rw [min_eq_right above.le, choose_of_ne none_, choose_of_ne kept]
      constructor
      · intro _ le
        exact absurd above (not_lt.mpr le)
      · intro _
        exact (min_eq_right ((min_le_right _ _).trans above.le)).symm

theorem choose_comm_iff :
    choose absent (choose absent old first) second =
      choose absent (choose absent old second) first ↔
    (absent ≤ old →
      (first = absent → second ≤ absent) ∧
        (second = absent → first ≤ absent)) := by
  by_cases noFirst : first = absent
  · subst noFirst
    rw [choose_comm_nothing]
    simp
  · by_cases noSecond : second = absent
    · subst noSecond
      rw [eq_comm, choose_comm_nothing]
      simp [noFirst]
    · simp [noFirst, noSecond, choose_comm_of_ne]

end Choice

end RatboxServices
