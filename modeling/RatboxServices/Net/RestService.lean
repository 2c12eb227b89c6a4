import Mathlib.Order.BooleanAlgebra.Set
import RatboxServices.Net.Rest

namespace RatboxServices

/-! Changes of single clients that leave all of them at rest: those that nobody
notices, and a service that is introduced or unlinked. -/

namespace Part

theorem bones_of_core {old new : Part} (same : new.core = old.core) :
    new.bones = old.bones := by
  cases old <;> cases new <;> simp_all [core, bones]

end Part

namespace Client

theorem onService_bones (change : Service → Service) (client : Client) :
    (client.onService change).part.bones = client.part.bones ∧
      (client.onService change).uplink = client.uplink ∧
      (client.onService change).name = client.name ∧
      (client.onService change).uid = client.uid := by
  unfold Client.onService
  split
  · rename_i service part
    simp [part, Part.bones]
  · exact ⟨rfl, rfl, rfl, rfl⟩

theorem present_onService {change : Service → Service}
    (kept : ∀ ours, (change ours).status.has serviceIntroduced =
      ours.status.has serviceIntroduced) (client : Client) :
    (client.onService change).present = client.present := by
  unfold Client.onService
  split
  · rename_i ours part
    simp [present, part, kept ours]
  · rfl

theorem present_setStatus {client : Client}
    (service : client.isService = true) :
    (client.setStatus serviceIntroduced).present = true := by
  unfold isService at service
  split at service
  · rename_i ours part
    simp [setStatus, onService, part, present, serviceIntroduced]
  · cases service

theorem present_clearStatus {client : Client}
    (service : client.isService = true) :
    (client.clearStatus serviceIntroduced).present = false := by
  unfold isService at service
  split at service
  · rename_i ours part
    simp [clearStatus, onService, part, present]
  · cases service

end Client

namespace Clients

variable {s t : Clients} {target a : ClientId} {client : Client}
  {change : Client → Client} {good : Prop} {uplink : Option ClientId}

theorem present_modify
    (kept : ∀ client, (change client).present = client.present) :
    (s.modify target change).present = s.present :=
  present_congr (SameMarks.modify kept).shows

theorem present_mark (used : s.client.cell target = some client)
    (marked : (change client).present = true) :
    (s.modify target change).present = insert target s.present := by
  ext a
  rw [Set.mem_insert_iff]
  by_cases equal : a = target
  · subst equal
    have after : (s.modify a change).client.cell a = some (change client) := by
      simp [Clients.modify, used]
    rw [mem_present after]
    exact ⟨fun _ => Or.inl rfl, fun _ => marked⟩
  · show Clients.shows Client.present _ a = true ↔
      _ ∨ Clients.shows Client.present s a = true
    unfold Clients.shows Clients.modify
    dsimp only
    rw [Heap.modify_cell_of_ne _ _ equal]
    simp [equal]

theorem present_unmark (used : s.client.cell target = some client)
    (unmarked : (change client).present = false) :
    (s.modify target change).present = s.present \ {target} := by
  ext a
  rw [Set.mem_sdiff, Set.mem_singleton_iff]
  by_cases equal : a = target
  · subst equal
    have after : (s.modify a change).client.cell a = some (change client) := by
      simp [Clients.modify, used]
    rw [mem_present after, unmarked]
    simp
  · show Clients.shows Client.present _ a = true ↔
      Clients.shows Client.present s a = true ∧ _
    unfold Clients.shows Clients.modify
    dsimp only
    rw [Heap.modify_cell_of_ne _ _ equal]
    simp [equal]

theorem present_withNew (here : client.present = true) :
    (s.withNew client).present = insert s.client.next s.present := by
  ext a
  rw [Set.mem_insert_iff]
  by_cases new : a = s.client.next
  · subst new
    rw [mem_present withNew_next]
    exact ⟨fun _ => Or.inl rfl, fun _ => here⟩
  · show (s.withNew client).shows Client.present a = true ↔
      _ ∨ s.shows Client.present a = true
    rw [withNew_shows _ new]
    simp [new]

theorem exists_of_isService (service : s.isService target = true) :
    ∃ client, s.client.cell target = some client ∧
      client.isService = true := by
  unfold isService at service
  split at service
  · rename_i client used
    exact ⟨client, used, service⟩
  · cases service

namespace AtRest

theorem modify (rest : AtRest good uplink s)
    (bones : ∀ client, (change client).part.bones = client.part.bones)
    (up : ∀ client, (change client).uplink = client.uplink)
    (name : ∀ client, (change client).name = client.name)
    (uid : ∀ client, (change client).uid = client.uid)
    (present : ∀ client, (change client).present = client.present) :
    AtRest good uplink (s.modify target change) := by
  have same : (s.modify target change).present = s.present :=
    present_modify present
  refine rest.of_shape (same ▸ rest.tree.modify (fun client _ =>
    bones client) up) (fun sound => same ▸ (rest.tabled sound).modify name uid)
    (.modify (fun client _ => Part.kind_of_bones (bones client)) up) rfl

theorem modify_unlinked (rest : AtRest good uplink s)
    (bones : ∀ client, (change client).part.bones = client.part.bones)
    (up : ∀ client, (change client).uplink = client.uplink)
    (present : ∀ client, (change client).present = client.present)
    (absent : good → target ∉ s.present) :
    AtRest good uplink (s.modify target change) := by
  have same : (s.modify target change).present = s.present :=
    present_modify present
  exact rest.of_shape (same ▸ rest.tree.modify (fun client _ =>
    bones client) up) (fun sound => same ▸
      (rest.tabled sound).modify_unlinked (absent sound))
    (.modify (fun client _ => Part.kind_of_bones (bones client)) up) rfl

theorem benign (rest : AtRest good uplink s)
    (benign : Client.Benign change) :
    AtRest good uplink (s.modify target change) := by
  have same {α : Type} (field : Client.Core → α) (client : Client) :
      field (change client).core = field client.core :=
    congrArg field (benign client)
  exact rest.modify (fun client =>
      Part.bones_of_core (same Client.Core.part client))
    (same Client.Core.uplink) (same Client.Core.name) (same Client.Core.uid)
    fun client => Client.present_of_core (benign client)

theorem onService (rest : AtRest good uplink s) {change : Service → Service}
    (kept : ∀ ours, (change ours).status.has serviceIntroduced =
      ours.status.has serviceIntroduced) :
    AtRest good uplink (s.modify target (·.onService change)) :=
  rest.modify (fun client => (client.onService_bones change).1)
    (fun client => (client.onService_bones change).2.1)
    (fun client => (client.onService_bones change).2.2.1)
    (fun client => (client.onService_bones change).2.2.2)
    (Client.present_onService kept)

theorem marked_tree (rest : AtRest good uplink s)
    (service : s.isService target = true) (change : Service → Service)
    {linked : Set ClientId}
    (others : ∀ a, a ≠ target → (a ∈ linked ↔ a ∈ s.present)) :
    (s.modify target (·.onService change)).Tree linked := by
  have tree : s.Tree linked := by
    refine rest.tree.of_set fun a b on => others a ?_
    rintro rfl
    rw [rest.tree.service a service] at on
    cases on
  exact tree.modify (fun client _ => (client.onService_bones change).1)
    fun client => (client.onService_bones change).2.1

theorem marked_shape (change : Service → Service) :
    SameShape s (s.modify target (·.onService change)) :=
  .modify (fun client _ =>
    Part.kind_of_bones (client.onService_bones change).1)
    fun client => (client.onService_bones change).2.1

theorem deintroduceService (wild : Wild) (rest : AtRest good uplink s)
    (service : s.isService target = true)
    (linked : good → s.isIntroduced target = true) :
    AtRest good uplink (s.deintroduceService wild target) := by
  obtain ⟨client, used, is⟩ := exists_of_isService service
  have cells := (delClient_cells wild target
    (s.modify target (·.clearStatus serviceIntroduced))).1
  have after : (s.deintroduceService wild target).present =
      s.present \ {target} := by
    refine (present_of_cells cells).trans ?_
    exact present_unmark used (Client.present_clearStatus is)
  have shape : SameShape s (s.deintroduceService wild target) :=
    (marked_shape _).trans (.of_cells cells)
  refine rest.of_shape ?_ (fun sound => ?_) shape
    (delClient_cells wild target _).2
  · rw [after]
    refine (rest.marked_tree service _ fun a other => ?_).of_cells cells
    rw [Set.mem_sdiff, Set.mem_singleton_iff]
    exact and_iff_left other
  · have here : target ∈ s.present := by
      rw [mem_present used, Client.present_of_service is]
      simpa [isIntroduced, used] using linked sound
    have still : (s.modify target (·.clearStatus serviceIntroduced)).Tabled
        s.present :=
      (rest.tabled sound).modify
        (fun client => (client.onService_bones _).2.2.1)
        fun client => (client.onService_bones _).2.2.2
    rw [after]
    exact still.delClient wild (Heap.modify_of_cell used) here

theorem introduceService (rest : AtRest good uplink s)
    (service : s.isService target = true)
    (cells : t.client = s.client) (services : t.serviceList = s.serviceList)
    (tabled : good → t.Tabled (s.present \ {target})) :
    AtRest good uplink (t.introduceService target) := by
  obtain ⟨client, used, is⟩ := exists_of_isService service
  have usedToo : t.client.cell target = some client := cells ▸ used
  have added := addClient_cells target
    (t.modify target (·.setStatus serviceIntroduced))
  have after : (t.introduceService target).present =
      insert target s.present := by
    rw [← present_of_cells cells]
    refine (present_of_cells added.1).trans ?_
    exact present_mark usedToo (Client.present_setStatus is)
  have same : insert target s.present =
      insert target (s.present \ {target}) := by
    rw [Set.insert_sdiff_singleton]
  have shape : SameShape s (t.introduceService target) :=
    (SameShape.of_cells cells).trans
      ((marked_shape _).trans (.of_cells added.1))
  refine rest.of_shape ?_ (fun sound => ?_) shape (added.2.trans services)
  · rw [after]
    have tree : (s.modify target (·.setStatus serviceIntroduced)).Tree
        (insert target s.present) := by
      refine rest.marked_tree service _ fun a other => ?_
      rw [Set.mem_insert_iff]
      exact or_iff_right other
    refine tree.of_cells ?_
    rw [Clients.introduceService, added.1]
    show t.client.modify _ _ = s.client.modify _ _
    rw [cells]
  · rw [after, same]
    have still : (t.modify target (·.setStatus serviceIntroduced)).Tabled
        (s.present \ {target}) :=
      (tabled sound).modify_unlinked fun here => here.2 rfl
    exact still.addClient (Heap.modify_of_cell usedToo)
      fun here => here.2 rfl

theorem introduceNew (rest : AtRest good uplink s)
    (service : s.isService target = true)
    (absent : good → s.isIntroduced target = false) :
    AtRest good uplink (s.introduceService target) := by
  refine rest.introduceService service rfl rfl fun sound => ?_
  obtain ⟨client, used, is⟩ := exists_of_isService service
  have outside : target ∉ s.present := by
    rw [mem_present used, Client.present_of_service is]
    simpa [isIntroduced, used] using absent sound
  rw [Set.sdiff_singleton_eq_self outside]
  exact rest.tabled sound

theorem introduceAgain (wild : Wild) (rest : AtRest good uplink s)
    (service : s.isService target = true)
    (linked : good → target ∈ s.present) :
    AtRest good uplink ((s.delClient wild target).introduceService target) := by
  obtain ⟨client, used, _⟩ := exists_of_isService service
  exact rest.introduceService service (delClient_cells wild target s).1
    (delClient_cells wild target s).2 fun sound =>
      (rest.tabled sound).delClient wild used (linked sound)

theorem deintroduceService_cell (wild : Wild) (other : a ≠ target) :
    (s.deintroduceService wild target).client.cell a = s.client.cell a := by
  unfold Clients.deintroduceService
  rw [(delClient_cells _ _ _).1]
  exact Heap.modify_cell_of_ne _ _ other

theorem introduceService_cell (other : a ≠ target) :
    (s.introduceService target).client.cell a = s.client.cell a := by
  unfold Clients.introduceService
  rw [(addClient_cells _ _).1]
  exact Heap.modify_cell_of_ne _ _ other

theorem signoffServices (wild : Wild) (rest : AtRest good uplink s)
    (introduced : good → ∀ a ∈ s.serviceList, s.isIntroduced a = true) :
    AtRest good uplink (s.signoffServices wild) := by
  have turns (list : List ClientId) (nodup : list.Nodup) :
      ∀ s, AtRest good uplink s →
        (∀ a ∈ list, s.isService a = true) →
        (good → ∀ a ∈ list, s.isIntroduced a = true) →
        AtRest good uplink (list.foldl (fun s serviceP =>
          s.deintroduceService wild serviceP) s) := by
    induction list with
    | nil => exact fun s rest _ _ => rest
    | cons serviceP others ih =>
        intro s rest services introduced
        obtain ⟨apart, nodup⟩ := List.nodup_cons.mp nodup
        have next := rest.deintroduceService wild
          (services serviceP (by simp)) fun sound =>
            introduced sound serviceP (by simp)
        have cells := (delClient_cells wild serviceP
          (s.modify serviceP (·.clearStatus serviceIntroduced))).1
        have shape : SameShape s (s.deintroduceService wild serviceP) :=
          (marked_shape _).trans (.of_cells cells)
        refine ih nodup _ next (fun a later => ?_) fun sound a later => ?_
        · rw [shape.service]
          exact services a (List.mem_cons_of_mem _ later)
        · have other : a ≠ serviceP := by
            rintro rfl
            exact apart later
          rw [isIntroduced, deintroduceService_cell wild other]
          exact introduced sound a (List.mem_cons_of_mem _ later)
  exact turns s.serviceList rest.nodup s rest rest.services introduced

theorem introduceServices (rest : AtRest good uplink s)
    (absent : good → ∀ a ∈ s.serviceList, s.isDisabled a = false →
      s.isIntroduced a = false) :
    AtRest good uplink s.introduceServices := by
  have turns (list : List ClientId) (nodup : list.Nodup) :
      ∀ s, AtRest good uplink s →
        (∀ a ∈ list, s.isService a = true) →
        (good → ∀ a ∈ list, s.isDisabled a = false →
          s.isIntroduced a = false) →
        AtRest good uplink (list.foldl (fun s serviceP =>
          if s.isDisabled serviceP then s
          else s.introduceService serviceP) s) := by
    induction list with
    | nil => exact fun s rest _ _ => rest
    | cons serviceP others ih =>
        intro s rest services absent
        obtain ⟨apart, nodup⟩ := List.nodup_cons.mp nodup
        have cells := (addClient_cells serviceP
          (s.modify serviceP (·.setStatus serviceIntroduced))).1
        have shape : SameShape s (s.introduceService serviceP) :=
          (marked_shape _).trans (.of_cells cells)
        rw [List.foldl_cons]
        split
        · exact ih nodup s rest (fun a later =>
            services a (List.mem_cons_of_mem _ later)) fun sound a later =>
              absent sound a (List.mem_cons_of_mem _ later)
        · rename_i enabled
          have next := rest.introduceNew (services serviceP (by simp))
            fun sound => absent sound serviceP (by simp) (by simpa using enabled)
          refine ih nodup _ next (fun a later => ?_) fun sound a later => ?_
          · rw [shape.service]
            exact services a (List.mem_cons_of_mem _ later)
          · have other : a ≠ serviceP := by
              rintro rfl
              exact apart later
            rw [isDisabled, isIntroduced, introduceService_cell other]
            exact absent sound a (List.mem_cons_of_mem _ later)
  exact turns s.serviceList rest.nodup s rest rest.services absent

theorem reloadService (wild : Wild) (rest : AtRest good uplink s)
    (service : s.isService target = true) :
    AtRest good uplink (s.reloadService wild target) := by
  have cleared {t : Clients} (rest : AtRest good uplink t) :
      AtRest good uplink
        (t.modify target (·.clearStatus serviceReintroduce)) :=
    rest.onService fun ours => by
      simp [serviceReintroduce, serviceIntroduced]
  unfold Clients.reloadService
  split
  · rename_i introduced
    obtain ⟨client, used, is⟩ := exists_of_isService service
    have here : target ∈ s.present := by
      rw [mem_present used, Client.present_of_service is]
      simpa [isIntroduced, used] using introduced
    split
    · exact rest.deintroduceService wild service fun _ => introduced
    · split
      · exact cleared (rest.introduceAgain wild service fun _ => here)
      · exact cleared rest
  · rename_i absent
    refine cleared ?_
    split
    · exact rest
    · exact rest.introduceNew service fun _ => by simpa using absent

theorem reloadService_shape (wild : Wild) :
    SameShape s (s.reloadService wild target) := by
  have deleted (s : Clients) : SameShape s (s.delClient wild target) :=
    .of_cells (delClient_cells wild target s).1
  have added (s : Clients) : SameShape s (s.introduceService target) :=
    (marked_shape _).trans (.of_cells (addClient_cells target _).1)
  unfold Clients.reloadService
  split
  · split
    · exact (marked_shape _).trans (deleted _)
    · split
      · exact ((deleted s).trans (added _)).trans (marked_shape _)
      · exact marked_shape _
  · dsimp only
    split
    · exact marked_shape _
    · exact (added s).trans (marked_shape _)

theorem reloadServices (wild : Wild) (rest : AtRest good uplink s)
    (list : List ClientId) (services : ∀ a ∈ list, s.isService a = true) :
    AtRest good uplink (list.foldl (Clients.reloadService wild) s) := by
  induction list generalizing s with
  | nil => exact rest
  | cons serviceP others ih =>
      refine ih (rest.reloadService wild (services serviceP (by simp)))
        fun a later => ?_
      rw [(reloadService_shape wild).service]
      exact services a (List.mem_cons_of_mem _ later)

end AtRest

end Clients

end RatboxServices
