import Mathlib.Data.List.Basic

namespace RatboxServices

/-! Lists that are searched by a key, where each item with a mark is the first
one with its key. -/

section Firsts

variable {α κ : Type} {key : α → κ} {Marked : α → Prop} {list : List α}
  {i : Nat} {item new : α}

def Firsts (key : α → κ) (Marked : α → Prop) (list : List α) : Prop :=
  list.Pairwise fun left right => Marked right → key left ≠ key right

namespace Firsts

theorem sublist {part : List α} (firsts : Firsts key Marked list)
    (inside : part.Sublist list) : Firsts key Marked part :=
  List.Pairwise.sublist inside firsts

theorem append (firsts : Firsts key Marked list) (unmarked : ¬Marked new) :
    Firsts key Marked (list ++ [new]) := by
  refine List.pairwise_append.mpr ⟨firsts, List.pairwise_singleton _ _, ?_⟩
  intro left _ right added marked
  cases List.mem_singleton.mp added
  exact absurd marked unmarked

theorem findIdx [DecidableEq κ] (firsts : Firsts key Marked list)
    (here : list[i]? = some item) (marked : Marked item) :
    (list.findIdx? fun other => decide (key other = key item)) = some i := by
  obtain ⟨below, rfl⟩ := List.getElem?_eq_some_iff.mp here
  refine List.findIdx?_eq_some_iff_getElem.mpr ⟨below, by simp, ?_⟩
  intro j before
  have apart := List.pairwise_iff_getElem.mp firsts j i
    (by omega) below before marked
  simpa using apart

theorem set (firsts : Firsts key Marked list) (here : list[i]? = some item)
    (same : key new = key item)
    (first : Marked new → Marked item ∨
      ∀ j, j < i → ∀ below : j < list.length, key list[j] ≠ key item) :
    Firsts key Marked (list.set i new) := by
  obtain ⟨inside, rfl⟩ := List.getElem?_eq_some_iff.mp here
  refine List.pairwise_iff_getElem.mpr fun j k left right before => ?_
  rw [List.length_set] at left right
  have old := List.pairwise_iff_getElem.mp firsts j k left right before
  rw [List.getElem_set, List.getElem_set]
  intro marked
  by_cases atRight : i = k
  · subst atRight
    have other : i ≠ j := by omega
    rw [if_pos rfl] at marked
    rw [if_neg other, if_pos rfl, same]
    rcases first marked with was | differs
    · exact old was
    · exact differs j before left
  · rw [if_neg atRight] at marked ⊢
    split
    · rename_i atLeft
      subst atLeft
      rw [same]
      exact old marked
    · exact old marked

end Firsts

end Firsts

end RatboxServices
