import RatboxServices.Lib.Buckets
import RatboxServices.Net.State

namespace RatboxServices

open CString

/-! Which clients `name_table` and `uid_table` link. It is stated for a set of
clients, so that it also holds in the middle of an exit. -/

namespace Clients

variable {s t : Clients} {linkedSet : Set ClientId} {target : ClientId}
  {client : Client} {change : Client → Client}

/-- The bucket of `name_table` a client belongs in. -/
def nameKey (s : Clients) (a : ClientId) : Option Nat :=
  (s.client.cell a).map fun client => hashName client.name

/-- The bucket of `uid_table` a client with a uid belongs in. -/
def uidKey (s : Clients) (a : ClientId) : Option Nat :=
  (s.client.cell a).bind fun client =>
    if client.uid.isEmpty then none else some (hashName client.uid)

theorem nameKey_eq (used : s.client.cell target = some client) :
    s.nameKey target = some (hashName client.name) := by
  rw [nameKey, used]
  rfl

theorem uidKey_eq (used : s.client.cell target = some client) :
    s.uidKey target =
      if client.uid.isEmpty then none else some (hashName client.uid) := by
  rw [uidKey, used]
  rfl

/-- The tables link exactly the clients of the set, and `del_client` was never
applied to one that was not linked. -/
structure Tabled (s : Clients) (linkedSet : Set ClientId) : Prop where
  name : Buckets.Holds s.nameTable s.nameKey linkedSet
  uid : Buckets.Holds s.uidTable s.uidKey linkedSet
  unlinkedDeletes : s.unlinkedDeletes = []

namespace Tabled

theorem of_keys (tabled : s.Tabled linkedSet)
    (nameTable : t.nameTable = s.nameTable)
    (uidTable : t.uidTable = s.uidTable)
    (unlinkedDeletes : t.unlinkedDeletes = s.unlinkedDeletes)
    (names : ∀ a ∈ linkedSet, t.nameKey a = s.nameKey a)
    (uids : ∀ a ∈ linkedSet, t.uidKey a = s.uidKey a) :
    t.Tabled linkedSet where
  name := nameTable ▸ tabled.name.congr names
  uid := uidTable ▸ tabled.uid.congr uids
  unlinkedDeletes := unlinkedDeletes.trans tabled.unlinkedDeletes

theorem of_cells (tabled : s.Tabled linkedSet)
    (nameTable : t.nameTable = s.nameTable)
    (uidTable : t.uidTable = s.uidTable)
    (unlinkedDeletes : t.unlinkedDeletes = s.unlinkedDeletes)
    (cells : ∀ a ∈ linkedSet, t.client.cell a = s.client.cell a) :
    t.Tabled linkedSet := by
  refine tabled.of_keys nameTable uidTable unlinkedDeletes ?_ ?_
  · intro a here
    rw [nameKey, nameKey, cells a here]
  · intro a here
    rw [uidKey, uidKey, cells a here]

theorem modify (tabled : s.Tabled linkedSet)
    (name : ∀ client, (change client).name = client.name)
    (uid : ∀ client, (change client).uid = client.uid) :
    (s.modify target change).Tabled linkedSet := by
  have keys : ∀ a, (s.modify target change).nameKey a = s.nameKey a ∧
      (s.modify target change).uidKey a = s.uidKey a := by
    intro a
    unfold nameKey uidKey Clients.modify
    dsimp only
    rw [Heap.modify_cell]
    by_cases equal : a = target
    · subst equal
      rw [if_pos rfl]
      cases s.client.cell a with
      | none => exact ⟨rfl, rfl⟩
      | some client => simp [name, uid]
    · rw [if_neg equal]
      exact ⟨rfl, rfl⟩
  exact tabled.of_keys rfl rfl rfl (fun a _ => (keys a).1)
    fun a _ => (keys a).2

theorem modify_unlinked (tabled : s.Tabled linkedSet)
    (absent : target ∉ linkedSet) :
    (s.modify target change).Tabled linkedSet := by
  refine tabled.of_cells rfl rfl rfl fun a here => ?_
  refine Heap.modify_cell_of_ne _ _ ?_
  rintro rfl
  exact absent here

theorem alloc (tabled : s.Tabled linkedSet)
    (known : ∀ a ∈ linkedSet, a ≠ s.client.next) :
    Tabled { s with client := s.client.alloc client } linkedSet := by
  refine tabled.of_cells rfl rfl rfl fun a here => ?_
  show (s.client.alloc client).cell a = _
  rw [Heap.alloc_cell, if_neg (known a here)]

theorem addClient (tabled : s.Tabled linkedSet)
    (used : s.client.cell target = some client)
    (absent : target ∉ linkedSet) :
    (s.addClient target).Tabled (insert target linkedSet) := by
  have named := nameKey_eq used
  have added := tabled.name.add named absent
  unfold Clients.addClient
  rw [used]
  dsimp only
  split
  · rename_i without
    have keyless : s.uidKey target = none := by
      rw [uidKey_eq used, if_pos without]
    exact ⟨added, tabled.uid.add_keyless keyless, tabled.unlinkedDeletes⟩
  · rename_i given
    have keyed : s.uidKey target = some (hashName client.uid) := by
      rw [uidKey_eq used, if_neg given]
    exact ⟨added, tabled.uid.add keyed absent, tabled.unlinkedDeletes⟩

theorem linked (tabled : s.Tabled linkedSet)
    (used : s.client.cell target = some client) (here : target ∈ linkedSet) :
    s.linked target client = true := by
  have named := nameKey_eq used
  have inNames := (tabled.name.mem_iff named).mpr here
  unfold Clients.linked
  rw [Bool.and_eq_true, Bool.or_eq_true]
  refine ⟨by simpa using inNames, ?_⟩
  by_cases without : client.uid.isEmpty = true
  · exact Or.inl without
  · have keyed : s.uidKey target = some (hashName client.uid) := by
      rw [uidKey_eq used, if_neg without]
    exact Or.inr (by simpa using (tabled.uid.mem_iff keyed).mpr here)

theorem delClient (wild : Wild) (tabled : s.Tabled linkedSet)
    (used : s.client.cell target = some client) (here : target ∈ linkedSet) :
    (s.delClient wild target).Tabled (linkedSet \ {target}) := by
  have named := nameKey_eq used
  have deleted := tabled.name.delete wild named here
  unfold Clients.delClient
  rw [used]
  dsimp only
  rw [if_pos (tabled.linked used here)]
  split
  · rename_i without
    have keyless : s.uidKey target = none := by
      rw [uidKey_eq used, if_pos without]
    exact ⟨deleted, tabled.uid.delete_keyless keyless,
      tabled.unlinkedDeletes⟩
  · rename_i given
    have keyed : s.uidKey target = some (hashName client.uid) := by
      rw [uidKey_eq used, if_neg given]
    exact ⟨deleted, tabled.uid.delete wild keyed here,
      tabled.unlinkedDeletes⟩

end Tabled

theorem cell_of_findNamedClient {name : CString}
    (found : s.findNamedClient name = some target) :
    ∃ client, s.client.cell target = some client := by
  have named := List.find?_some found
  unfold hasName at named
  split at named
  · rename_i client used
    exact ⟨client, used⟩
  · cases named

theorem cell_of_findUid {name : CString}
    (found : s.findUid name = some target) :
    ∃ client, s.client.cell target = some client := by
  have named := List.find?_some found
  unfold hasUid at named
  split at named
  · rename_i client used
    exact ⟨client, used⟩
  · cases named

theorem findClient_cases {name : CString}
    (found : s.findClient name = some target) :
    s.findUid name = some target ∨ s.findNamedClient name = some target := by
  unfold findClient at found
  split at found
  · split at found
    · rename_i uid
      cases found
      exact Or.inl uid
    · exact Or.inr found
  · exact Or.inr found

theorem cell_of_findClient {name : CString}
    (found : s.findClient name = some target) :
    ∃ client, s.client.cell target = some client := by
  obtain uid | named := findClient_cases found
  · exact cell_of_findUid uid
  · exact cell_of_findNamedClient named

namespace Tabled

theorem of_findNamedClient (tabled : s.Tabled linkedSet) {name : CString}
    (found : s.findNamedClient name = some target) : target ∈ linkedSet :=
  tabled.name.mem_of_linked (List.mem_of_find?_eq_some found)

theorem of_findClient (tabled : s.Tabled linkedSet) {name : CString}
    (found : s.findClient name = some target) : target ∈ linkedSet := by
  obtain uid | named := findClient_cases found
  · exact tabled.uid.mem_of_linked (List.mem_of_find?_eq_some uid)
  · exact tabled.of_findNamedClient named

end Tabled

end Clients

end RatboxServices
