import Mathlib.Data.Set.Insert
import RatboxServices.Lib.Dlink

namespace RatboxServices

/-! Hash tables: an array of lists with their counters. An item is linked in
the list of its key; an item without a key is in no list. -/

namespace Buckets

variable {α : Type} {table : Nat → DlinkList α} {key : α → Option Nat}
  {items : Set α} {item : α} {hashv : Nat}

/-- The table links exactly the items of a set, each once in the list of its
key, and counts them. -/
def Holds (table : Nat → DlinkList α) (key : α → Option Nat)
    (items : Set α) : Prop :=
  ∀ hashv, (table hashv).Holds fun item =>
    item ∈ items ∧ key item = some hashv

namespace Holds

theorem empty : Holds (fun _ => (DlinkList.empty : DlinkList α)) key ∅ :=
  fun _ => DlinkList.Holds.empty.congr fun _ => by simp

theorem congr {other : α → Option Nat} (holds : Holds table key items)
    (same : ∀ item ∈ items, other item = key item) :
    Holds table other items := by
  intro hashv
  refine (holds hashv).congr fun item => and_congr_right fun here => ?_
  rw [same item here]

theorem mem_iff (holds : Holds table key items)
    (keyed : key item = some hashv) :
    item ∈ (table hashv).nodes ↔ item ∈ items := by
  rw [(holds hashv).mem_iff]
  simp [keyed]

theorem mem_of_linked (holds : Holds table key items)
    (linked : item ∈ (table hashv).nodes) : item ∈ items :=
  (((holds hashv).mem_iff item).mp linked).1

theorem add (holds : Holds table key items) (keyed : key item = some hashv)
    (absent : item ∉ items) :
    Holds (Function.update table hashv ((table hashv).add item)) key
      (insert item items) := by
  intro other
  by_cases equal : other = hashv
  · subst equal
    rw [Function.update_self]
    refine ((holds other).add fun here => absent here.1).congr fun each => ?_
    constructor
    · rintro (rfl | ⟨here, at_⟩)
      · exact ⟨Set.mem_insert _ _, keyed⟩
      · exact ⟨Set.mem_insert_of_mem _ here, at_⟩
    · rintro ⟨rfl | here, at_⟩
      · exact Or.inl rfl
      · exact Or.inr ⟨here, at_⟩
  · rw [Function.update_of_ne equal]
    refine (holds other).congr fun each => ?_
    constructor
    · rintro ⟨here, at_⟩
      exact ⟨Set.mem_insert_of_mem _ here, at_⟩
    · rintro ⟨rfl | here, at_⟩
      · rw [keyed, Option.some.injEq] at at_
        exact absurd at_.symm equal
      · exact ⟨here, at_⟩

theorem add_keyless (holds : Holds table key items)
    (keyless : key item = none) : Holds table key (insert item items) := by
  intro hashv
  refine (holds hashv).congr fun each => ?_
  constructor
  · rintro ⟨here, at_⟩
    exact ⟨Set.mem_insert_of_mem _ here, at_⟩
  · rintro ⟨rfl | here, at_⟩
    · rw [keyless] at at_
      cases at_
    · exact ⟨here, at_⟩

theorem delete [DecidableEq α] (wild : α → DlinkList α → DlinkList α)
    (holds : Holds table key items) (keyed : key item = some hashv)
    (present : item ∈ items) :
    Holds (Function.update table hashv ((table hashv).delete wild item)) key
      (items \ {item}) := by
  intro other
  by_cases equal : other = hashv
  · subst equal
    rw [Function.update_self]
    refine ((holds other).delete wild ⟨present, keyed⟩).congr fun each => ?_
    constructor
    · rintro ⟨different, here, at_⟩
      exact ⟨⟨here, different⟩, at_⟩
    · rintro ⟨⟨here, different⟩, at_⟩
      exact ⟨different, here, at_⟩
  · rw [Function.update_of_ne equal]
    refine (holds other).congr fun each => ?_
    constructor
    · rintro ⟨here, at_⟩
      refine ⟨⟨here, ?_⟩, at_⟩
      rintro rfl
      rw [keyed, Option.some.injEq] at at_
      exact equal at_.symm
    · rintro ⟨⟨here, _⟩, at_⟩
      exact ⟨here, at_⟩

theorem delete_keyless (holds : Holds table key items)
    (keyless : key item = none) : Holds table key (items \ {item}) := by
  intro hashv
  refine (holds hashv).congr fun each => ?_
  constructor
  · rintro ⟨here, at_⟩
    refine ⟨⟨here, ?_⟩, at_⟩
    rintro rfl
    rw [keyless] at at_
    cases at_
  · rintro ⟨⟨here, _⟩, at_⟩
    exact ⟨here, at_⟩

end Holds

end Buckets

end RatboxServices
