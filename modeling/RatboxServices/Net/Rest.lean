import RatboxServices.Net.ExitTree
import RatboxServices.Net.LinkStep

namespace RatboxServices

/-! Between two steps the clients that are linked are the services that are
introduced and the users and servers that did not exit. The tree is sound in
every state; the tables are, as long as nothing is deleted from them that they
do not hold. -/

namespace Client

def present (client : Client) : Bool :=
  match client.part with
  | .service ours => ours.status.has serviceIntroduced
  | _ => !client.isDead

theorem present_of_plain {client : Client} (plain : client.isService = false) :
    client.present = !client.isDead := by
  unfold present
  split
  · rename_i ours part
    simp [isService, part] at plain
  · rfl

theorem present_of_service {client : Client}
    (service : client.isService = true) :
    client.present = client.introduced := by
  unfold isService at service
  split at service
  · rename_i ours part
    simp [present, introduced, part]
  · cases service

theorem present_of_core {old new : Client} (same : new.core = old.core) :
    new.present = old.present := by
  have parts : new.part.core = old.part.core := congrArg Core.part same
  have dead : new.isDead = old.isDead := congrArg Core.isDead same
  unfold present
  cases before : old.part <;> cases after : new.part <;>
    simp_all [Part.core]

end Client

namespace Clients

def present (s : Clients) : Set ClientId :=
  { a | s.shows Client.present a = true }

variable {s t : Clients} {target a : ClientId} {client : Client}

theorem mem_present (used : s.client.cell a = some client) :
    a ∈ s.present ↔ client.present = true := by
  show s.shows Client.present a = true ↔ _
  rw [shows, used]

theorem not_mem_present (free : s.client.cell a = none) : a ∉ s.present := by
  show ¬ s.shows Client.present a = true
  rw [shows, free]
  exact Bool.false_ne_true

theorem cell_of_present (here : a ∈ s.present) :
    ∃ client, s.client.cell a = some client := by
  cases used : s.client.cell a with
  | none => exact absurd here (not_mem_present used)
  | some client => exact ⟨client, rfl⟩

theorem present_congr
    (same : ∀ a, t.shows Client.present a = s.shows Client.present a) :
    t.present = s.present := by
  ext a
  show t.shows Client.present a = true ↔ s.shows Client.present a = true
  rw [same]

theorem present_of_cells (cells : t.client = s.client) :
    t.present = s.present :=
  present_congr fun a => by rw [shows, shows, cells]

theorem next_not_present : s.client.next ∉ s.present :=
  not_mem_present (Heap.cell_next _)

structure AtRest (good : Prop) (uplink : Option ClientId) (s : Clients) :
    Prop where
  tree : s.Tree s.present
  tabled : good → s.Tabled s.present
  nodup : s.serviceList.Nodup
  services : ∀ a ∈ s.serviceList, s.isService a = true
  uplink : ∀ target, uplink = some target → s.isServer target = true

namespace AtRest

variable {good : Prop} {uplink later : Option ClientId}

theorem of_kinds (rest : AtRest good uplink s) (tree : t.Tree t.present)
    (tabled : good → t.Tabled t.present)
    (service : ∀ a, s.isService a = true → t.isService a = true)
    (server : ∀ a, s.isServer a = true → t.isServer a = true)
    (serviceList : t.serviceList = s.serviceList) :
    AtRest good uplink t where
  tree := tree
  tabled := tabled
  nodup := serviceList ▸ rest.nodup
  services := fun a listed =>
    service a (rest.services a (serviceList ▸ listed))
  uplink := fun target here => server target (rest.uplink target here)

theorem of_shape (rest : AtRest good uplink s) (tree : t.Tree t.present)
    (tabled : good → t.Tabled t.present) (shape : SameShape s t)
    (serviceList : t.serviceList = s.serviceList) : AtRest good uplink t :=
  rest.of_kinds tree tabled (fun a is => (shape.service a).trans is)
    (fun a is => (shape.server a).trans is) serviceList

theorem of_uplink (rest : AtRest good uplink s)
    (same : ∀ target, later = some target → uplink = some target) :
    AtRest good later s :=
  { rest with uplink := fun target here => rest.uplink target (same target here) }

end AtRest

end Clients

namespace State

variable {env : Env} {now : Int} {s t : State} {target a : ClientId}
  {client : Client} {good : Prop}

def uplinkP (s : State) : Option ClientId :=
  s.serverP.bind Lconn.clientP

abbrev AtRest (good : Prop) (s : State) : Prop :=
  s.clients.AtRest good s.uplinkP

namespace AtRest

theorem plain_of_under (rest : AtRest good s)
    (plain : s.clients.isService target = false)
    (under : s.clients.Under target a) : s.clients.isService a = false := by
  cases under with
  | self => exact plain
  | child uplink above =>
      by_contra service
      have none := rest.tree.service a (by simpa using service)
      rw [none] at uplink
      cases uplink

theorem alive (rest : AtRest good s)
    (plain : s.clients.isService target = false) (a : ClientId)
    (here : a ∈ s.clients.present) (under : s.clients.Under target a) :
    s.clients.isExited a = false := by
  obtain ⟨client, used⟩ := Clients.cell_of_present here
  have person := rest.plain_of_under plain under
  have isPlain : client.isService = false := by
    simpa [Clients.isService, used] using person
  rw [Clients.mem_present used, Client.present_of_plain isPlain] at here
  simpa [Clients.isExited, Clients.shows, used] using here

theorem present_eq (rest : AtRest good s)
    (plain : s.clients.isService target = false) {linked : Set ClientId}
    (exited : Exited good (s.clients.Under target) s.clients.present linked
      s t) : t.clients.present = linked := by
  ext a
  cases used : s.clients.client.cell a with
  | none =>
      have gone : t.clients.client.cell a = none := by
        have cells := exited.frame.cells a
        rw [used] at cells
        cases after : t.clients.client.cell a with
        | none => rfl
        | some client =>
            rw [after] at cells
            cases cells
      constructor
      · exact fun here => absurd here (Clients.not_mem_present gone)
      · exact fun here => absurd (exited.subset here)
          (Clients.not_mem_present used)
  | some old =>
      obtain ⟨new, after, lasting⟩ := exited.frame.lasting used
      have kind : new.isService = old.isService := by
        have same := exited.frame.shape.service a
        simpa [Clients.isService, used, after] using same
      rw [Clients.mem_present after]
      by_cases service : old.isService = true
      · rw [Client.present_of_service (kind.trans service),
          lasting.introduced, ← Client.present_of_service service,
          ← Clients.mem_present used]
        constructor
        · intro here
          by_contra outside
          have person := rest.plain_of_under plain
            (exited.region a here outside)
          simp [Clients.isService, used, service] at person
        · exact fun here => exited.subset here
      · have isPlain : old.isService = false := by simpa using service
        have before : a ∈ s.clients.present ↔ old.isDead = false := by
          rw [Clients.mem_present used, Client.present_of_plain isPlain]
          simp
        have dead := exited.exited a
        simp only [Clients.isExited, Clients.shows, used, after] at dead
        rw [Client.present_of_plain (kind.trans isPlain), Bool.not_eq_true',
          ← Bool.not_eq_true, dead, before]
        constructor
        · intro alive
          by_contra outside
          have living : old.isDead = false := by
            by_contra dies
            exact alive (Or.inl (by simpa using dies))
          exact alive (Or.inr ⟨living, outside⟩)
        · rintro here (dies | ⟨_, outside⟩)
          · have living := before.mp (exited.subset here)
            rw [living] at dies
            cases dies
          · exact outside here

theorem of_exited (rest : AtRest good s)
    (plain : s.clients.isService target = false) {linked : Set ClientId}
    (exited : Exited good (s.clients.Under target) s.clients.present linked
      s t) : AtRest good t := by
  have linked_eq := rest.present_eq plain exited
  have same : t.uplinkP = s.uplinkP := by
    rw [uplinkP, exited.frame.serverP, uplinkP]
  rw [AtRest, same]
  exact Clients.AtRest.of_shape rest (linked_eq ▸ exited.tree)
    (fun sound => linked_eq ▸ exited.tabled sound) exited.frame.shape
    exited.frame.serviceList

end AtRest

theorem exit_of_dead (used : s.clients.client.cell target = some client)
    (plain : client.isService = false) (dead : client.isDead = true) :
    s.exit env target =
      .ok (s.onClients (Clients.delClient env.wild target)) := by
  have there : s.clients.deref target = .ok client := by
    simp [Clients.deref, used]
  unfold exit exitClient
  rw [there, Except.ok_bind]
  split
  · rename_i ours part
    simp [Client.isService, part] at plain
  · rw [exitServer, if_pos dead]
    rfl
  · rw [exitUser, if_pos dead]
    rfl

theorem exit_of_service (used : s.clients.client.cell target = some client)
    (service : client.isService = true) : s.exit env target = .ok s := by
  have there : s.clients.deref target = .ok client := by
    simp [Clients.deref, used]
  unfold exit exitClient
  rw [there, Except.ok_bind]
  split
  · rfl
  · rename_i leaf part
    simp [Client.isService, part] at service
  · rename_i person part
    simp [Client.isService, part] at service

theorem exit_atRest (rest : AtRest good s)
    (used : s.clients.client.cell target = some client)
    (linked : good → client.isService = false →
      target ∈ s.clients.present) :
    Outcome (fun _ => False) (AtRest good) (s.exit env target) := by
  by_cases service : client.isService = true
  · rw [exit_of_service used service]
    exact rest
  have plain : client.isService = false := by simpa using service
  by_cases dead : client.isDead = true
  · rw [exit_of_dead used plain dead]
    have cells := (Clients.delClient_cells env.wild target s.clients).1
    have same := Clients.present_of_cells cells
    refine Clients.AtRest.of_shape rest (same ▸ rest.tree.of_cells cells)
      (fun sound => ?_) (.of_cells cells) (Clients.delClient_cells _ _ _).2
    have here := linked sound plain
    rw [Clients.mem_present used, Client.present_of_plain plain, dead] at here
    cases here
  · have person : s.clients.isService target = false := by
      simp [Clients.isService, used, plain]
    have here : target ∈ s.clients.present := by
      rw [Clients.mem_present used, Client.present_of_plain plain]
      simpa using dead
    have enough : s.clients.client.next <
        s.clients.client.next + 1 + target :=
      Nat.lt_of_lt_of_le (Nat.lt_succ_self _) (Nat.le_add_right _ _)
    refine Outcome.imp (exitClient_exited _ enough here used plain rest.tree
      rest.tabled (rest.alive person)) ?_
    rintro t ⟨others, exited⟩
    exact rest.of_exited person exited

end State

end RatboxServices
