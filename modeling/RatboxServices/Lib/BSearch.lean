import Mathlib.Data.List.Lex
import Mathlib.Order.Compare
import Mathlib.Order.Lattice

namespace RatboxServices

/-! Binary search as the C library's `bsearch` does it, and the sorting it
relies on. The key is compared with an element: it comes before it, after it or
is equal to it. -/

namespace BSearch

variable {α κ : Type}

/-- The loop on the window from `low` up to `high`. A turn makes the window
smaller, so `fuel` turns are enough for one of that size. -/
def loop (compar : α → Ordering) (arr : List α) : Nat → Nat → Nat → Option α
  | 0, _, _ => none
  | fuel + 1, low, high =>
      if low < high then
        match arr[(low + high) / 2]? with
        | none => none
        | some element =>
            match compar element with
            | .lt => loop compar arr fuel low ((low + high) / 2)
            | .gt => loop compar arr fuel ((low + high) / 2 + 1) high
            | .eq => some element
      else none

/-- `bsearch`. -/
def search (compar : α → Ordering) (arr : List α) : Option α :=
  loop compar arr arr.length 0 arr.length

/-- What comes before the key stands in front of what is equal to it and of
what comes after it. -/
structure Partitioned (compar : α → Ordering) (arr : List α) : Prop where
  before : arr.Pairwise fun left right => compar left = .lt → compar right = .lt
  behind : arr.Pairwise fun left right => compar right = .gt → compar left = .gt

theorem loop_sound {compar : α → Ordering} {arr : List α}
    {fuel low high : Nat} {found : α}
    (hit : loop compar arr fuel low high = some found) :
    found ∈ arr ∧ compar found = .eq := by
  induction fuel generalizing low high with
  | zero => cases hit
  | succ fuel ih =>
      unfold loop at hit
      split at hit
      · split at hit
        · cases hit
        · rename_i element here
          split at hit
          · exact ih hit
          · exact ih hit
          · rename_i same
            cases hit
            exact ⟨List.mem_of_getElem? here, same⟩
      · cases hit

theorem loop_complete {compar : α → Ordering} {arr : List α}
    (parts : Partitioned compar arr) {fuel low high : Nat}
    (inside : high ≤ arr.length) (enough : high ≤ low + fuel) {i : Nat}
    {found : α} (here : arr[i]? = some found) (same : compar found = .eq)
    (atLeast : low ≤ i) (below : i < high) :
    (loop compar arr fuel low high).isSome = true := by
  induction fuel generalizing low high with
  | zero => omega
  | succ fuel ih =>
      obtain ⟨reach, value⟩ := List.getElem?_eq_some_iff.mp here
      have open_ : low < high := Nat.lt_of_le_of_lt atLeast below
      have mid : (low + high) / 2 < arr.length := by omega
      rw [loop, if_pos open_, List.getElem?_eq_getElem mid]
      dsimp only
      cases order : compar arr[(low + high) / 2] with
      | lt =>
          refine ih (by omega) (by omega) atLeast
            (Nat.lt_of_not_le fun behind => ?_)
          rcases Nat.lt_or_eq_of_le behind with before | equal
          · have later := List.pairwise_iff_getElem.mp parts.before _ _ mid
              reach before order
            rw [value, same] at later
            cases later
          · subst equal
            rw [value, same] at order
            cases order
      | gt =>
          refine ih inside (by omega)
            (Nat.succ_le_of_lt (Nat.lt_of_not_le fun before => ?_)) below
          rcases Nat.lt_or_eq_of_le before with before | equal
          · have earlier := List.pairwise_iff_getElem.mp parts.behind _ _
              reach mid before order
            rw [value, same] at earlier
            cases earlier
          · subst equal
            rw [value, same] at order
            cases order
      | eq => rfl

theorem search_sound {compar : α → Ordering} {arr : List α} {found : α}
    (hit : search compar arr = some found) :
    found ∈ arr ∧ compar found = .eq :=
  loop_sound hit

theorem search_isSome_iff {compar : α → Ordering} {arr : List α}
    (parts : Partitioned compar arr) :
    (search compar arr).isSome = true ↔ ∃ found ∈ arr, compar found = .eq := by
  constructor
  · intro hit
    obtain ⟨found, hit⟩ := Option.isSome_iff_exists.mp hit
    exact ⟨found, search_sound hit⟩
  · rintro ⟨found, listed, same⟩
    obtain ⟨i, here⟩ := List.getElem?_of_mem listed
    obtain ⟨below, _⟩ := List.getElem?_eq_some_iff.mp here
    exact loop_complete parts (Nat.le_refl _) (Nat.le_add_left _ _) here same
      (Nat.zero_le i) below

section Key

variable [LinearOrder κ]

def compareKey (key : α → κ) (name : κ) (element : α) : Ordering :=
  cmp name (key element)

def Sorted (key : α → κ) (arr : List α) : Prop :=
  arr.Pairwise fun left right => key left ≤ key right

/-- `qsort` by the key. -/
def sort (key : α → κ) (arr : List α) : List α :=
  arr.mergeSort fun left right => decide (key left ≤ key right)

theorem sort_perm (key : α → κ) (arr : List α) :
    (sort key arr).Perm arr :=
  List.mergeSort_perm _ _

theorem sorted_sort (key : α → κ) (arr : List α) :
    Sorted key (sort key arr) := by
  have total : ∀ left right : α,
      (decide (key left ≤ key right) || decide (key right ≤ key left)) = true := by
    intro left right
    simpa using le_total (key left) (key right)
  have trans : ∀ left middle right : α, decide (key left ≤ key middle) = true →
      decide (key middle ≤ key right) = true →
      decide (key left ≤ key right) = true := by
    intro left middle right first second
    exact decide_eq_true
      (le_trans (of_decide_eq_true first) (of_decide_eq_true second))
  exact (List.pairwise_mergeSort trans total arr).imp fun least =>
    of_decide_eq_true least

theorem Sorted.partitioned {key : α → κ} {arr : List α}
    (sorted : Sorted key arr) (name : κ) :
    Partitioned (compareKey key name) arr where
  before := sorted.imp fun {_ _} least before =>
    cmp_eq_lt_iff _ _ |>.mpr
      (lt_of_lt_of_le ((cmp_eq_lt_iff _ _).mp before) least)
  behind := sorted.imp fun {_ _} least behind =>
    cmp_eq_gt_iff _ _ |>.mpr
      (lt_of_le_of_lt least ((cmp_eq_gt_iff _ _).mp behind))

theorem search_sorted_iff {key : α → κ} {arr : List α}
    (sorted : Sorted key arr) (name : κ) :
    (search (compareKey key name) arr).isSome = true ↔
      ∃ found ∈ arr, key found = name := by
  rw [search_isSome_iff (sorted.partitioned name)]
  refine exists_congr fun found => and_congr_right fun _ => ?_
  rw [compareKey, cmp_eq_eq_iff]
  exact eq_comm

end Key

end BSearch

end RatboxServices
