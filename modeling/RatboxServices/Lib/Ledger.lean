import Mathlib.Data.List.Flatten
import Mathlib.Data.List.Nodup
import Mathlib.Data.List.Perm.Subperm

namespace RatboxServices

/-! Objects that are made one after another, each with an address of its own,
and a log of the addresses that were freed. Who holds what is a list of
addresses, in no particular order. -/

structure Ledger (α : Type) where
  objects : List α := []
  frees : List Nat := []

namespace Ledger

variable {α β γ : Type}

def make (value : α) (ledger : Ledger α) : Nat × Ledger α :=
  (ledger.objects.length, { ledger with objects := ledger.objects ++ [value] })

def free (addresses : List Nat) (ledger : Ledger α) : Ledger α :=
  { ledger with frees := ledger.frees ++ addresses }

def modify (address : Nat) (change : α → α) (ledger : Ledger α) : Ledger α :=
  { ledger with objects := ledger.objects.modify address change }

def each (work : β → Ledger α → γ × Ledger α) :
    List β → Ledger α → List γ × Ledger α
  | [], ledger => ([], ledger)
  | item :: rest, ledger =>
      let first := work item ledger
      let others := each work rest first.2
      (first.1 :: others.1, others.2)

/-- What is held was made and is not freed, and nothing is held twice or freed
twice. -/
structure Holds (held : List Nat) (ledger : Ledger α) : Prop where
  nodup : (ledger.frees ++ held).Nodup
  made : ∀ address ∈ ledger.frees ++ held, address < ledger.objects.length

namespace Holds

variable {held other : List Nat} {ledger : Ledger α}

theorem empty : Holds [] ({} : Ledger α) where
  nodup := List.nodup_nil
  made := by simp

theorem live (holds : Holds held ledger) {address : Nat}
    (mine : address ∈ held) : address ∉ ledger.frees :=
  fun freed => List.disjoint_of_nodup_append holds.nodup freed mine

theorem once (holds : Holds held ledger) : ledger.frees.Nodup :=
  holds.nodup.of_append_left

theorem subperm (holds : Holds held ledger) (less : other.Subperm held) :
    Holds other ledger where
  nodup := by
    obtain ⟨part, same, inside⟩ := (List.subperm_append_left _).mpr less
    exact same.nodup_iff.mp (holds.nodup.sublist inside)
  made := by
    intro address listed
    apply holds.made
    rcases List.mem_append.mp listed with freed | mine
    · exact List.mem_append_left _ freed
    · exact List.mem_append_right _ (less.subset mine)

theorem perm (holds : Holds held ledger) (same : held.Perm other) :
    Holds other ledger :=
  holds.subperm same.symm.subperm

theorem make (holds : Holds held ledger) (value : α) :
    Holds ((ledger.make value).1 :: held) (ledger.make value).2 where
  nodup := by
    have new : ledger.objects.length ∉ ledger.frees ++ held :=
      fun listed => Nat.lt_irrefl _ (holds.made _ listed)
    exact List.nodup_middle.mpr (List.nodup_cons.mpr ⟨new, holds.nodup⟩)
  made := by
    intro address listed
    dsimp only [Ledger.make]
    rw [List.length_append, List.length_singleton]
    rcases List.mem_cons.mp (List.perm_middle.mem_iff.mp listed) with rfl | old
    · exact Nat.lt_succ_self _
    · exact Nat.lt_succ_of_lt (holds.made address old)

theorem free (holds : Holds (other ++ held) ledger) :
    Holds held (ledger.free other) where
  nodup := by
    dsimp only [Ledger.free]
    rw [List.append_assoc]
    exact holds.nodup
  made := by
    dsimp only [Ledger.free]
    rw [List.append_assoc]
    exact holds.made

theorem modify (holds : Holds held ledger) (address : Nat)
    (change : α → α) : Holds held (ledger.modify address change) where
  nodup := holds.nodup
  made := by
    dsimp only [Ledger.modify]
    rw [List.length_modify]
    exact holds.made

end Holds

/-- Work that takes over `before` and leaves `after`, whatever else is held. -/
def Trades (before after : List Nat) (old new : Ledger α) : Prop :=
  ∀ rest, Holds (before ++ rest) old → Holds (after ++ rest) new

namespace Trades

variable {first second third rest : List Nat} {old middle new : Ledger α}

theorem refl (held : List Nat) (ledger : Ledger α) :
    Trades held held ledger ledger :=
  fun _ holds => holds

theorem trans (left : Trades first second old middle)
    (right : Trades second third middle new) : Trades first third old new :=
  fun rest holds => right rest (left rest holds)

theorem perm {first' second' : List Nat} (trades : Trades first second old new)
    (before : first'.Perm first) (after : second.Perm second') :
    Trades first' second' old new := by
  intro rest holds
  have own := trades rest (holds.perm (before.append_right rest))
  exact own.perm (after.append_right rest)

theorem append_right (trades : Trades first second old new)
    (more : List Nat) : Trades (first ++ more) (second ++ more) old new := by
  intro rest holds
  rw [List.append_assoc] at holds ⊢
  exact trades (more ++ rest) holds

theorem append_left (trades : Trades first second old new)
    (more : List Nat) : Trades (more ++ first) (more ++ second) old new :=
  (trades.append_right more).perm List.perm_append_comm List.perm_append_comm

theorem gain (trades : Trades [] second old new) (holds : Holds rest old) :
    Holds (second ++ rest) new :=
  trades rest holds

theorem andThen (left : Trades first second old middle)
    (right : Trades [] third middle new) :
    Trades first (second ++ third) old new := by
  have more := right.append_left second
  rw [List.append_nil] at more
  exact left.trans more

theorem quiet (work : Trades [] [] old new) (held : List Nat) :
    Trades held held old new := by
  have framed := work.append_left held
  rw [List.append_nil] at framed
  exact framed

theorem lose (less : second.Subperm first) (ledger : Ledger α) :
    Trades first second ledger ledger := fun rest holds =>
  holds.subperm ((List.subperm_append_right rest).mpr less)

theorem make (value : α) (ledger : Ledger α) :
    Trades [] [(ledger.make value).1] ledger (ledger.make value).2 :=
  fun _ holds => holds.make value

theorem free (held : List Nat) (ledger : Ledger α) :
    Trades held [] ledger (ledger.free held) :=
  fun _ holds => holds.free

theorem modify (address : Nat) (change : α → α) (ledger : Ledger α) :
    Trades [] [] ledger (ledger.modify address change) :=
  fun _ holds => holds.modify address change

theorem each {work : β → Ledger α → γ × Ledger α} {takes : β → List Nat}
    {gives : γ → List Nat} {items : List β}
    (trades : ∀ item ∈ items, ∀ ledger, Trades (takes item)
      (gives (work item ledger).1) ledger (work item ledger).2)
    (ledger : Ledger α) :
    Trades (items.flatMap takes)
      ((Ledger.each work items ledger).1.flatMap gives) ledger
      (Ledger.each work items ledger).2 := by
  induction items generalizing ledger with
  | nil => exact refl [] ledger
  | cons item rest ih =>
      obtain ⟨here, later⟩ := List.forall_mem_cons.mp trades
      have first := (here ledger).append_right (rest.flatMap takes)
      have others := (ih later (work item ledger).2).append_left
        (gives (work item ledger).1)
      exact first.trans others

theorem each_new {work : β → Ledger α → γ × Ledger α} {gives : γ → List Nat}
    {items : List β}
    (trades : ∀ item ∈ items, ∀ ledger,
      Trades [] (gives (work item ledger).1) ledger (work item ledger).2)
    (ledger : Ledger α) :
    Trades [] ((Ledger.each work items ledger).1.flatMap gives) ledger
      (Ledger.each work items ledger).2 := by
  have all := each trades ledger
  rw [List.flatMap_eq_nil_iff.mpr fun _ _ => rfl] at all
  exact all

theorem each_quiet {work : β → Ledger α → γ × Ledger α} {items : List β}
    (trades : ∀ item ∈ items, ∀ ledger,
      Trades [] [] ledger (work item ledger).2)
    (ledger : Ledger α) :
    Trades [] [] ledger (Ledger.each work items ledger).2 := by
  have all : Trades [] ((Ledger.each work items ledger).1.flatMap fun _ => [])
      ledger (Ledger.each work items ledger).2 := each_new trades ledger
  rw [List.flatMap_eq_nil_iff.mpr fun _ _ => rfl] at all
  exact all

end Trades

section Each

variable {work : β → Ledger α → γ × Ledger α} {items : List β}

theorem forall_each {Gives : γ → Prop}
    (gives : ∀ item ∈ items, ∀ ledger, Gives (work item ledger).1)
    (ledger : Ledger α) :
    ∀ result ∈ (each work items ledger).1, Gives result := by
  induction items generalizing ledger with
  | nil => simp [each]
  | cons item rest ih =>
      obtain ⟨here, later⟩ := List.forall_mem_cons.mp gives
      exact List.forall_mem_cons.mpr ⟨here ledger, ih later _⟩

theorem length_each (items : List β) (ledger : Ledger α) :
    (each work items ledger).1.length = items.length := by
  induction items generalizing ledger with
  | nil => rfl
  | cons item rest ih => exact congrArg Nat.succ (ih _)

theorem each_eq {work : β → Ledger α → β × Ledger α}
    (same : ∀ item ∈ items, ∀ ledger, (work item ledger).1 = item)
    (ledger : Ledger α) : (each work items ledger).1 = items := by
  induction items generalizing ledger with
  | nil => rfl
  | cons item rest ih =>
      obtain ⟨here, later⟩ := List.forall_mem_cons.mp same
      exact congr (congrArg List.cons (here ledger)) (ih later _)

end Each

end Ledger

end RatboxServices
