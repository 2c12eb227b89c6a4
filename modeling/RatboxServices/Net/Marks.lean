import RatboxServices.Net.Exit

namespace RatboxServices

/-! What is seen of the clients without their tables, and what leaves it as it
is. -/

namespace Clients

theorem delClient_cells (wild : Wild) (target : ClientId)
    (clients : Clients) :
    (clients.delClient wild target).client = clients.client ∧
      (clients.delClient wild target).serviceList = clients.serviceList := by
  unfold delClient
  split
  · exact ⟨rfl, rfl⟩
  · dsimp only
    split
    · exact ⟨rfl, rfl⟩
    · exact ⟨rfl, rfl⟩

theorem addClient_cells (target : ClientId) (clients : Clients) :
    (clients.addClient target).client = clients.client ∧
      (clients.addClient target).serviceList = clients.serviceList := by
  unfold addClient
  split
  · exact ⟨rfl, rfl⟩
  · dsimp only
    split
    · exact ⟨rfl, rfl⟩
    · exact ⟨rfl, rfl⟩

def shows (observe : Client → Bool) (s : Clients) (a : ClientId) : Bool :=
  match s.client.cell a with
  | some client => observe client
  | none => false

theorem isIntroduced_eq (s : Clients) (a : ClientId) :
    s.isIntroduced a = s.shows Client.introduced a := rfl

structure SameMarks (observe : Client → Bool) (s t : Clients) : Prop where
  serviceList : t.serviceList = s.serviceList
  shows : ∀ a, t.shows observe a = s.shows observe a

namespace SameMarks

variable {observe : Client → Bool} {r s t : Clients} {target : ClientId}

theorem refl (s : Clients) : SameMarks observe s s :=
  ⟨rfl, fun _ => rfl⟩

theorem trans (first : SameMarks observe r s)
    (second : SameMarks observe s t) : SameMarks observe r t :=
  ⟨second.serviceList.trans first.serviceList, fun a =>
    (second.shows a).trans (first.shows a)⟩

theorem modify {change : Client → Client}
    (kept : ∀ client, observe (change client) = observe client) :
    SameMarks observe s (s.modify target change) := by
  refine ⟨rfl, fun a => ?_⟩
  unfold Clients.shows Clients.modify
  dsimp only
  rw [Heap.modify_cell]
  by_cases equal : a = target
  · subst equal
    rw [if_pos rfl]
    cases s.client.cell a with
    | none => rfl
    | some client => exact kept client
  · rw [if_neg equal]

theorem alloc {client : Client} (mere : observe client = false) :
    SameMarks observe s { s with client := s.client.alloc client } := by
  refine ⟨rfl, fun a => ?_⟩
  unfold Clients.shows
  dsimp only
  rw [Heap.alloc_cell]
  by_cases new : a = s.client.next
  · rw [if_pos new, new, Heap.cell_next]
    exact mere
  · rw [if_neg new]

theorem of_cells (cells : t.client = s.client)
    (services : t.serviceList = s.serviceList) : SameMarks observe s t := by
  refine ⟨services, fun a => ?_⟩
  unfold Clients.shows
  rw [cells]

theorem addClient : SameMarks observe s (s.addClient target) :=
  of_cells (addClient_cells target s).1 (addClient_cells target s).2

theorem delClient (wild : Wild) :
    SameMarks observe s (s.delClient wild target) :=
  of_cells (delClient_cells wild target s).1
    (delClient_cells wild target s).2

end SameMarks

end Clients

end RatboxServices
