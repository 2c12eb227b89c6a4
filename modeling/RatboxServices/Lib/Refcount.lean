import Mathlib.Data.List.Perm.Basic
import RatboxServices.Lib.Heap

namespace RatboxServices

/-! Cells that count who refers to them. The references are a list, in no
particular order. -/

section Refcount

variable {α : Type} {count : α → Int}

/-- No cell that is referred to is free, and every cell has the number of its
references. -/
structure Counts (count : α → Int) (heap : Heap α) (refs : List Nat) :
    Prop where
  live : ∀ address ∈ refs, (heap.cell address).isSome = true
  counted : ∀ address value, heap.cell address = some value →
    count value = refs.count address

namespace Counts

variable {heap : Heap α} {refs : List Nat} {address : Nat} {change : α → α}

theorem empty : Counts count (Heap.empty : Heap α) [] where
  live _ listed := nomatch listed
  counted _ _ used := nomatch used

theorem perm {other : List Nat} (counts : Counts count heap refs)
    (same : refs.Perm other) : Counts count heap other where
  live address listed := counts.live address (same.mem_iff.mpr listed)
  counted address value used := by
    rw [counts.counted address value used, same.count_eq]

theorem modify (counts : Counts count heap refs) (address : Nat)
    (keeps : ∀ value, count (change value) = count value) :
    Counts count (heap.modify address change) refs where
  live other listed := by
    rw [Heap.modify_isSome]
    exact counts.live other listed
  counted other value used := by
    obtain ⟨old, before, rfl⟩ := Heap.cell_of_modify used
    rw [← counts.counted other old before]
    split
    · exact keeps old
    · rfl

theorem acquire (counts : Counts count heap refs)
    (used : (heap.cell address).isSome = true)
    (counts_up : ∀ value, count (change value) = count value + 1) :
    Counts count (heap.modify address change) (address :: refs) where
  live other listed := by
    rw [Heap.modify_isSome]
    obtain rfl | listed := List.mem_cons.mp listed
    · exact used
    · exact counts.live other listed
  counted other value here := by
    obtain ⟨old, before, rfl⟩ := Heap.cell_of_modify here
    have known := counts.counted other old before
    rw [List.count_cons]
    by_cases equal : other = address
    · rw [if_pos equal, counts_up, known, if_pos (by simp [equal])]
      rfl
    · rw [if_neg equal, known, if_neg (by simpa using fun same => equal same.symm)]
      rfl

theorem release (counts : Counts count heap (address :: refs))
    (counts_down : ∀ value, count (change value) = count value - 1) :
    Counts count (heap.modify address change) refs where
  live other listed := by
    rw [Heap.modify_isSome]
    exact counts.live other (List.mem_cons_of_mem _ listed)
  counted other value here := by
    obtain ⟨old, before, rfl⟩ := Heap.cell_of_modify here
    have known := counts.counted other old before
    rw [List.count_cons] at known
    by_cases equal : other = address
    · rw [if_pos (by simp [equal])] at known
      rw [if_pos equal, counts_down, known]
      omega
    · rw [if_neg (by simpa using fun same => equal same.symm)] at known
      rw [if_neg equal, known]
      rfl

theorem alloc (counts : Counts count heap refs) {value : α}
    (none_ : count value = 0) : Counts count (heap.alloc value) refs where
  live other listed := by
    obtain ⟨old, used⟩ := Option.isSome_iff_exists.mp (counts.live other listed)
    rw [Heap.alloc_cell_of_used used]
    rfl
  counted other held used := by
    rw [Heap.alloc_cell] at used
    split at used
    · rename_i equal
      cases used
      rw [none_, List.count_eq_zero_of_not_mem]
      · rfl
      · intro listed
        have used := counts.live other listed
        rw [equal, Heap.cell_next] at used
        cases used
    · exact counts.counted other held used

theorem free (counts : Counts count heap refs) {value : α}
    (used : heap.cell address = some value) (none_ : count value = 0) :
    Counts count (heap.free address) refs where
  live other listed := by
    have referred : refs.count other ≠ 0 := by
      simpa [List.count_eq_zero] using listed
    have different : other ≠ address := by
      rintro rfl
      have known := counts.counted other value used
      omega
    rw [Heap.free_cell, if_neg different]
    exact counts.live other listed
  counted other held there := by
    rw [Heap.free_cell] at there
    split at there
    · cases there
    · exact counts.counted other held there

end Counts

section Slots

variable {β : Type} {slot : β → Option Nat} {list : List β} {i : Nat}
  {old : β}

theorem slots_perm (found : list[i]? = some old) :
    (list.filterMap slot).Perm
      ((slot old).toList ++ (list.eraseIdx i).filterMap slot) := by
  obtain ⟨bound, same⟩ := List.getElem?_eq_some_iff.mp found
  have split := (List.getElem_cons_eraseIdx_perm bound).symm.filterMap slot
  rw [same, List.filterMap_cons] at split
  cases held : slot old with
  | none => simpa [held] using split
  | some address => simpa [held] using split

theorem slots_set_perm (found : list[i]? = some old) (new : β) :
    ((list.set i new).filterMap slot).Perm
      ((slot new).toList ++ (list.eraseIdx i).filterMap slot) := by
  obtain ⟨bound, -⟩ := List.getElem?_eq_some_iff.mp found
  have split := (List.set_perm_cons_eraseIdx bound new).filterMap slot
  rw [List.filterMap_cons] at split
  cases held : slot new with
  | none => simpa [held] using split
  | some address => simpa [held] using split

theorem slots_set_split (found : list[i]? = some old) (new : β)
    {given : Option Nat}
    (splits : (slot old).toList = given.toList ++ (slot new).toList) :
    (list.filterMap slot).Perm
      (given.toList ++ (list.set i new).filterMap slot) := by
  refine (slots_perm found).trans ?_
  rw [splits, List.append_assoc]
  exact (slots_set_perm found new).symm.append_left _

theorem slots_map_perm {gives : β → Option Nat} {goes : β → Bool}
    {change : β → β}
    (splits : ∀ record ∈ list, goes record = true →
      (slot record).toList =
        (gives record).toList ++ (slot (change record)).toList) :
    (list.filterMap slot).Perm
      ((list.filter goes).filterMap gives ++
        (list.map fun record =>
          if goes record then change record else record).filterMap slot) := by
  induction list with
  | nil => exact .nil
  | cons first rest ih =>
      have later := ih fun record listed =>
        splits record (List.mem_cons_of_mem _ listed)
      have head (slot : β → Option Nat) (record : β) (rest : List β) :
          (record :: rest).filterMap slot =
            (slot record).toList ++ rest.filterMap slot := by
        rw [List.filterMap_cons]
        cases slot record <;> rfl
      rw [head, List.map_cons, head]
      by_cases leaves : goes first = true
      · rw [List.filter_cons_of_pos leaves, head, if_pos leaves,
          splits first (by simp) leaves, List.append_assoc, List.append_assoc]
        refine List.Perm.append_left _ ?_
        exact (later.append_left _).trans (List.perm_append_comm_assoc ..)
      · rw [List.filter_cons_of_neg leaves, if_neg leaves]
        exact (later.append_left _).trans (List.perm_append_comm_assoc ..)

theorem slots_filter {stays : β → Bool}
    (goes : ∀ record ∈ list, stays record = false → slot record = none) :
    (list.filter stays).filterMap slot = list.filterMap slot := by
  rw [List.filterMap_filter]
  refine List.filterMap_congr fun record listed => ?_
  by_cases keeps : stays record = true
  · rw [if_pos keeps]
  · rw [if_neg keeps, goes record listed (by simpa using keeps)]

end Slots

end Refcount

end RatboxServices
