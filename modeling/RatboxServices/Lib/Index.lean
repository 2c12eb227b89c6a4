import RatboxServices.Lib.Dlink
import RatboxServices.Lib.Heap

namespace RatboxServices

/-! Indexes over a heap: lists that hold the addresses of exactly those cells
whose value satisfies a predicate. -/

namespace Heap

variable {α : Type} {heap : Heap α} {P : α → Prop} {target address : Nat}
  {value old : α} {change : α → α}

/-- The cell is in use and its value satisfies `P`. -/
def Has (heap : Heap α) (P : α → Prop) (address : Nat) : Prop :=
  ∃ value, heap.cell address = some value ∧ P value

theorem has_iff (used : heap.cell address = some value) :
    heap.Has P address ↔ P value := by
  simp [Has, used]

theorem not_has_of_free (free : heap.cell address = none) :
    ¬heap.Has P address := by
  simp [Has, free]

theorem has_alloc :
    (heap.alloc value).Has P address ↔
      (address = heap.next ∧ P value) ∨ heap.Has P address := by
  unfold Has
  rw [alloc_cell]
  by_cases new : address = heap.next
  · simp [new, cell_next]
  · simp [new]

theorem has_free :
    (heap.free target).Has P address ↔
      address ≠ target ∧ heap.Has P address := by
  unfold Has
  rw [free_cell]
  by_cases equal : address = target
  · simp [equal]
  · simp [equal]

theorem has_modify_of_ne (different : address ≠ target) :
    (heap.modify target change).Has P address ↔ heap.Has P address := by
  unfold Has
  rw [modify_cell_of_ne _ _ different]

theorem has_modify_self (used : heap.cell target = some old) :
    (heap.modify target change).Has P target ↔ P (change old) := by
  simp [Has, used]

theorem has_modify_of_same
    (same : ∀ value, P (change value) ↔ P value) :
    (heap.modify target change).Has P address ↔ heap.Has P address := by
  by_cases equal : address = target
  · subst equal
    cases used : heap.cell address with
    | none => simp [Has, used]
    | some old =>
        rw [has_modify_self used, has_iff used]
        exact same old
  · exact has_modify_of_ne equal

end Heap

namespace Exactly

variable {α : Type} {heap : Heap α} {P : α → Prop} {list : List Nat}
  {target : Nat} {value old : α} {change : α → α}

theorem alloc_in (index : Exactly list (heap.Has P)) (holds : P value) :
    Exactly (Dlink.add heap.next list) ((heap.alloc value).Has P) := by
  have absent : ¬heap.Has P heap.next :=
    Heap.not_has_of_free heap.cell_next
  refine (index.add absent).congr fun address => ?_
  rw [Heap.has_alloc]
  simp [holds]

theorem alloc_out (index : Exactly list (heap.Has P))
    (fails : ¬P value) : Exactly list ((heap.alloc value).Has P) := by
  refine index.congr fun address => ?_
  rw [Heap.has_alloc]
  simp [fails]

theorem free_in (index : Exactly list (heap.Has P)) :
    Exactly (Dlink.delete target list) ((heap.free target).Has P) := by
  refine (index.delete target).congr fun address => ?_
  rw [Heap.has_free]

theorem free_out (index : Exactly list (heap.Has P))
    (fails : ¬heap.Has P target) :
    Exactly list ((heap.free target).Has P) := by
  refine index.congr fun address => ?_
  rw [Heap.has_free]
  constructor
  · intro here
    refine ⟨?_, here⟩
    rintro rfl
    exact fails here
  · exact fun here => here.2

theorem modify_same (index : Exactly list (heap.Has P))
    (same : ∀ value, heap.cell target = some value →
      (P (change value) ↔ P value)) :
    Exactly list ((heap.modify target change).Has P) := by
  refine index.congr fun address => ?_
  by_cases equal : address = target
  · subst equal
    cases used : heap.cell address with
    | none => simp [Heap.Has, used]
    | some old =>
        rw [Heap.has_modify_self used, Heap.has_iff used]
        exact (same old used).symm
  · exact (Heap.has_modify_of_ne equal).symm

theorem modify_enter (index : Exactly list (heap.Has P))
    (used : heap.cell target = some old) (before : ¬P old)
    (after : P (change old)) :
    Exactly (Dlink.add target list) ((heap.modify target change).Has P) := by
  have absent : ¬heap.Has P target := by rwa [Heap.has_iff used]
  refine (index.add absent).congr fun address => ?_
  by_cases equal : address = target
  · subst equal
    simp [Heap.has_modify_self used, after]
  · rw [Heap.has_modify_of_ne equal]
    simp [equal]

theorem modify_leave (index : Exactly list (heap.Has P))
    (used : heap.cell target = some old) (after : ¬P (change old)) :
    Exactly (Dlink.delete target list)
      ((heap.modify target change).Has P) := by
  refine (index.delete target).congr fun address => ?_
  by_cases equal : address = target
  · subst equal
    simp [Heap.has_modify_self used, after]
  · rw [Heap.has_modify_of_ne equal]
    simp [equal]

end Exactly

end RatboxServices
