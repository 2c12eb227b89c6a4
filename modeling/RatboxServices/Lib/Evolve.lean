import RatboxServices.Lib.Heap

namespace RatboxServices

/-! How the cells of a heap change over time. Addresses are not handed out
twice, so a cell that is in use at two times was in use all the time between. -/

namespace Heap

variable {α : Type} {R : α → α → Prop} {Born : α → Prop}
  {old middle new : Heap α} {target : Nat} {value : α} {change : α → α}

/-- Each cell that is still in use changed by `R`, and the cells that were
handed out since hold values of `Born`. -/
structure Evolves (R : α → α → Prop) (Born : α → Prop)
    (old new : Heap α) : Prop where
  next_le : old.next ≤ new.next
  kept : ∀ address after, address < old.next →
    new.cell address = some after →
    ∃ before, old.cell address = some before ∧ R before after
  born : ∀ address after, old.next ≤ address →
    new.cell address = some after → Born after

/-- Values of `Born` stay in it, and changes compose. -/
structure Lawful (R : α → α → Prop) (Born : α → Prop) : Prop where
  refl : ∀ value, R value value
  trans : ∀ {first second third}, R first second → R second third →
    R first third
  born : ∀ {first second}, Born first → R first second → Born second

namespace Evolves

theorem refl (same : ∀ value, R value value) (heap : Heap α) :
    Evolves R Born heap heap where
  next_le := Nat.le_refl _
  kept := fun _ after _ used => ⟨after, used, same after⟩
  born := fun address after beyond used => by
    rw [heap.fresh address beyond] at used
    cases used

theorem trans (lawful : Lawful R Born) (first : Evolves R Born old middle)
    (second : Evolves R Born middle new) : Evolves R Born old new where
  next_le := Nat.le_trans first.next_le second.next_le
  kept := by
    intro address after before used
    obtain ⟨between, there, later⟩ := second.kept address after
      (Nat.lt_of_lt_of_le before first.next_le) used
    obtain ⟨start, here, earlier⟩ := first.kept address between before there
    exact ⟨start, here, lawful.trans earlier later⟩
  born := by
    intro address after beyond used
    by_cases known : address < middle.next
    · obtain ⟨between, there, later⟩ := second.kept address after known used
      exact lawful.born (first.born address between beyond there) later
    · exact second.born address after (Nat.le_of_not_lt known) used

theorem mono {S : α → α → Prop} {Found : α → Prop}
    (evolves : Evolves R Born old new)
    (weaker : ∀ before after, R before after → S before after)
    (births : ∀ value, Born value → Found value) :
    Evolves S Found old new where
  next_le := evolves.next_le
  kept := by
    intro address after before used
    obtain ⟨start, here, changed⟩ := evolves.kept address after before used
    exact ⟨start, here, weaker start after changed⟩
  born := fun address after beyond used =>
    births after (evolves.born address after beyond used)

theorem alloc (same : ∀ value, R value value) (new : Born value) :
    Evolves R Born old (old.alloc value) where
  next_le := Nat.le_succ _
  kept := by
    intro address after before used
    rw [alloc_cell, if_neg (Nat.ne_of_lt before)] at used
    exact ⟨after, used, same after⟩
  born := by
    intro address after beyond used
    rw [alloc_cell] at used
    by_cases here : address = old.next
    · rw [if_pos here, Option.some.injEq] at used
      exact used ▸ new
    · rw [if_neg here, old.fresh address beyond] at used
      cases used

theorem free (same : ∀ value, R value value) :
    Evolves R Born old (old.free target) where
  next_le := Nat.le_refl _
  kept := by
    intro address after _ used
    rw [free_cell] at used
    by_cases here : address = target
    · rw [if_pos here] at used
      cases used
    · rw [if_neg here] at used
      exact ⟨after, used, same after⟩
  born := by
    intro address after beyond used
    rw [free_cell, old.fresh address beyond, ite_self] at used
    cases used

theorem modify (same : ∀ value, R value value)
    (changes : ∀ before, old.cell target = some before →
      R before (change before)) :
    Evolves R Born old (old.modify target change) where
  next_le := Nat.le_refl _
  kept := by
    intro address after _ used
    obtain ⟨before, there, rfl⟩ := cell_of_modify used
    refine ⟨before, there, ?_⟩
    by_cases here : address = target
    · rw [if_pos here]
      exact changes before (here ▸ there)
    · rw [if_neg here]
      exact same before
  born := by
    intro address after beyond used
    obtain ⟨before, there, _⟩ := cell_of_modify used
    rw [old.fresh address beyond] at there
    cases there

theorem forall_of_forall {P : α → Prop} (evolves : Evolves R Born old new)
    (changes : ∀ before after, R before after → P before → P after)
    (births : ∀ value, Born value → P value)
    (start : ∀ address value, old.cell address = some value → P value)
    {address : Nat} (used : new.cell address = some value) : P value := by
  by_cases known : address < old.next
  · obtain ⟨before, there, changed⟩ := evolves.kept address value known used
    exact changes before value changed (start address before there)
  · exact births value
      (evolves.born address value (Nat.le_of_not_lt known) used)

end Evolves

end Heap

end RatboxServices
