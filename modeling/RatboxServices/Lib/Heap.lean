import Mathlib.Logic.Function.Basic

namespace RatboxServices

/-! Block heaps: cells handed out one after another and freed one by one.
Addresses are never handed out twice, so a freed address stays free. -/

@[ext] structure Heap (α : Type) where
  cell : Nat → Option α
  next : Nat
  fresh : ∀ address, next ≤ address → cell address = none

namespace Heap

variable {α : Type}

def empty : Heap α where
  cell := fun _ => none
  next := 0
  fresh := fun _ _ => rfl

def alloc (heap : Heap α) (value : α) : Heap α where
  cell := Function.update heap.cell heap.next (some value)
  next := heap.next + 1
  fresh := by
    intro address bound
    have different : address ≠ heap.next := by omega
    rw [Function.update_of_ne different]
    exact heap.fresh address (by omega)

def free (heap : Heap α) (target : Nat) : Heap α where
  cell := Function.update heap.cell target none
  next := heap.next
  fresh := by
    intro address bound
    by_cases equal : address = target
    · simp [equal]
    · rw [Function.update_of_ne equal]
      exact heap.fresh address bound

def modify (heap : Heap α) (target : Nat) (change : α → α) : Heap α where
  cell := Function.update heap.cell target ((heap.cell target).map change)
  next := heap.next
  fresh := by
    intro address bound
    by_cases equal : address = target
    · subst equal
      simp [heap.fresh address bound]
    · rw [Function.update_of_ne equal]
      exact heap.fresh address bound

def map (heap : Heap α) (change : α → α) : Heap α where
  cell := fun address => (heap.cell address).map change
  next := heap.next
  fresh := by
    intro address bound
    rw [heap.fresh address bound]
    rfl

def get [Inhabited α] (heap : Heap α) (address : Nat) : α :=
  (heap.cell address).getD default

@[simp] theorem empty_cell (address : Nat) :
    (empty : Heap α).cell address = none := rfl

theorem lt_next {heap : Heap α} {address : Nat} {value : α}
    (used : heap.cell address = some value) : address < heap.next := by
  by_contra beyond
  rw [heap.fresh address (by omega)] at used
  cases used

theorem cell_next (heap : Heap α) : heap.cell heap.next = none :=
  heap.fresh heap.next (Nat.le_refl _)

theorem alloc_cell (heap : Heap α) (value : α) (address : Nat) :
    (heap.alloc value).cell address =
      if address = heap.next then some value else heap.cell address := by
  simp only [alloc, Function.update_apply]

@[simp] theorem alloc_cell_next (heap : Heap α) (value : α) :
    (heap.alloc value).cell heap.next = some value := by
  simp [alloc]

@[simp] theorem alloc_next (heap : Heap α) (value : α) :
    (heap.alloc value).next = heap.next + 1 := rfl

theorem alloc_cell_of_used {heap : Heap α} {address : Nat} {old value : α}
    (used : heap.cell address = some old) :
    (heap.alloc value).cell address = some old := by
  have bound := lt_next used
  rw [alloc_cell, if_neg (by omega), used]

theorem free_cell (heap : Heap α) (target address : Nat) :
    (heap.free target).cell address =
      if address = target then none else heap.cell address := by
  simp only [free, Function.update_apply]

@[simp] theorem free_next (heap : Heap α) (target : Nat) :
    (heap.free target).next = heap.next := rfl

theorem modify_cell (heap : Heap α) (target : Nat) (change : α → α)
    (address : Nat) :
    (heap.modify target change).cell address =
      if address = target then (heap.cell target).map change
      else heap.cell address := by
  simp only [modify, Function.update_apply]

@[simp] theorem modify_cell_self (heap : Heap α) (target : Nat)
    (change : α → α) :
    (heap.modify target change).cell target =
      (heap.cell target).map change := by
  simp [modify]

theorem modify_cell_of_ne (heap : Heap α) {target address : Nat}
    (change : α → α) (different : address ≠ target) :
    (heap.modify target change).cell address = heap.cell address := by
  simp [modify, Function.update_of_ne different]

@[simp] theorem modify_next (heap : Heap α) (target : Nat)
    (change : α → α) : (heap.modify target change).next = heap.next := rfl

theorem modify_isSome (heap : Heap α) (target : Nat) (change : α → α)
    (address : Nat) :
    ((heap.modify target change).cell address).isSome =
      (heap.cell address).isSome := by
  rw [modify_cell]
  by_cases equal : address = target
  · subst equal
    simp
  · simp [equal]

theorem cell_of_modify {heap : Heap α} {target address : Nat}
    {change : α → α} {value : α}
    (used : (heap.modify target change).cell address = some value) :
    ∃ old, heap.cell address = some old ∧
      value = if address = target then change old else old := by
  rw [modify_cell] at used
  by_cases equal : address = target
  · subst equal
    rw [if_pos rfl, Option.map_eq_some_iff] at used
    obtain ⟨old, found, changed⟩ := used
    exact ⟨old, found, by simp [changed]⟩
  · rw [if_neg equal] at used
    exact ⟨value, used, by simp [equal]⟩

theorem modify_of_cell {heap : Heap α} {target address : Nat}
    {change : α → α} {old : α} (used : heap.cell address = some old) :
    (heap.modify target change).cell address =
      some (if address = target then change old else old) := by
  rw [modify_cell]
  by_cases equal : address = target
  · subst equal
    simp [used]
  · simp [equal, used]

theorem modify_cell_map {β : Type} {observe : α → β} {change : α → α}
    (kept : ∀ value, observe (change value) = observe value)
    (heap : Heap α) (target address : Nat) :
    ((heap.modify target change).cell address).map observe =
      (heap.cell address).map observe := by
  rw [modify_cell]
  split
  · rename_i equal
    rw [equal, Option.map_map]
    exact congrArg (Option.map · _) (funext kept)
  · rfl

theorem modify_self (heap : Heap α) (target : Nat) :
    heap.modify target id = heap := by
  ext1
  · funext address
    rw [modify_cell, Option.map_id, id]
    split
    · rename_i equal
      rw [equal]
    · rfl
  · rfl

theorem modify_modify (heap : Heap α) (target : Nat)
    (first second : α → α) :
    (heap.modify target first).modify target second =
      heap.modify target fun value => second (first value) := by
  ext1
  · funext address
    simp only [modify_cell]
    by_cases equal : address = target
    · subst equal
      cases heap.cell address <;> simp
    · simp [equal]
  · rfl

theorem foldl_modify_cell {change : α → α}
    (stable : ∀ value, change (change value) = change value)
    (targets : List Nat) (heap : Heap α) (address : Nat) :
    (targets.foldl (fun heap target => heap.modify target change) heap).cell
        address =
      if address ∈ targets then (heap.cell address).map change
      else heap.cell address := by
  induction targets generalizing heap with
  | nil => simp
  | cons target rest ih =>
      rw [List.foldl_cons, ih, modify_cell]
      by_cases equal : address = target
      · subst equal
        cases heap.cell address with
        | none => simp
        | some value => simp [stable]
      · simp [equal]

theorem get_eq [Inhabited α] {heap : Heap α} {address : Nat} {value : α}
    (used : heap.cell address = some value) : heap.get address = value := by
  simp [get, used]

end Heap

end RatboxServices
