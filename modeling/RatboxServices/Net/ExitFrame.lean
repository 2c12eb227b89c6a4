import RatboxServices.Net.LineEffect
import RatboxServices.Net.Marks

namespace RatboxServices

/-! What an exit leaves alone. -/

namespace Part

def bare : Part → Part
  | .server leaf => .server { hops := leaf.hops }
  | .user person => .user person
  | .service ours => .service ours

end Part

namespace Client

/-- What an exit keeps of every client: all but its death and the lists of a
server. -/
structure Lasting (old new : Client) : Prop where
  name : new.name = old.name
  info : new.info = old.info
  uid : new.uid = old.uid
  uplink : new.uplink = old.uplink
  part : new.part.bare = old.part.bare
  dead : old.isDead = true → new.isDead = true

namespace Lasting

variable {old middle new : Client}

theorem refl (client : Client) : Lasting client client :=
  ⟨rfl, rfl, rfl, rfl, rfl, id⟩

theorem trans (first : Lasting old middle) (second : Lasting middle new) :
    Lasting old new where
  name := second.name.trans first.name
  info := second.info.trans first.info
  uid := second.uid.trans first.uid
  uplink := second.uplink.trans first.uplink
  part := second.part.trans first.part
  dead := fun before => second.dead (first.dead before)

theorem setDead (client : Client) :
    Lasting client (client.setFlag flagsDead) :=
  ⟨rfl, rfl, rfl, rfl, rfl, fun _ => by
    simp [isDead, Client.setFlag, flagsDead]⟩

theorem onServer {change : Server → Server}
    (hops : ∀ leaf, (change leaf).hops = leaf.hops) (client : Client) :
    Lasting client (client.onServer change) := by
  unfold Client.onServer
  split
  · rename_i leaf at_
    exact ⟨rfl, rfl, rfl, rfl, by simp [at_, Part.bare, hops], id⟩
  · exact refl client

theorem introduced (lasting : Lasting old new) :
    new.introduced = old.introduced := by
  have same := lasting.part
  unfold Client.introduced
  cases before : old.part <;> cases after : new.part <;>
    simp_all [Part.bare]

end Lasting

end Client

namespace State

variable {env : Env} {r s t : State}
  {target : ClientId}

/-- Everything but the channels, the tables, the lists of all users and servers
and of each server, and who is dead. -/
structure Frame (s t : State) : Prop where
  next : t.clients.client.next = s.clients.client.next
  cells : ∀ a, Option.Rel Client.Lasting (s.clients.client.cell a)
    (t.clients.client.cell a)
  serviceList : t.clients.serviceList = s.clients.serviceList
  serverP : t.serverP = s.serverP
  connectEvents : t.connectEvents = s.connectEvents
  pingTime : t.pingTime = s.pingTime

namespace Frame

theorem cells_refl (cell : Option Client) :
    Option.Rel Client.Lasting cell cell := by
  cases cell with
  | none => exact .none
  | some client => exact .some (.refl client)

theorem of_cells (same : t.clients.client = s.clients.client)
    (serviceList : t.clients.serviceList = s.clients.serviceList)
    (serverP : t.serverP = s.serverP)
    (connectEvents : t.connectEvents = s.connectEvents)
    (pingTime : t.pingTime = s.pingTime) : Frame s t := by
  refine ⟨by rw [same], fun a => ?_, serviceList, serverP, connectEvents,
    pingTime⟩
  rw [same]
  exact cells_refl _

theorem refl (s : State) : Frame s s :=
  of_cells rfl rfl rfl rfl rfl

theorem trans (first : Frame r s) (second : Frame s t) : Frame r t := by
  refine ⟨second.next.trans first.next, fun a => ?_,
    second.serviceList.trans first.serviceList,
    second.serverP.trans first.serverP,
    second.connectEvents.trans first.connectEvents,
    second.pingTime.trans first.pingTime⟩
  have left := first.cells a
  have right := second.cells a
  revert left right
  generalize r.clients.client.cell a = old
  generalize s.clients.client.cell a = middle
  generalize t.clients.client.cell a = new
  intro left right
  cases left with
  | none => exact right
  | some lasting =>
      cases right with
      | some further => exact .some (lasting.trans further)

theorem modifyClient {change : Client → Client}
    (lasting : ∀ client, Client.Lasting client (change client)) :
    Frame s (s.modifyClient target change) := by
  refine ⟨rfl, fun a => ?_, rfl, rfl, rfl, rfl⟩
  show Option.Rel _ _ ((s.clients.client.modify target change).cell a)
  rw [Heap.modify_cell]
  by_cases equal : a = target
  · subst equal
    rw [if_pos rfl]
    cases s.clients.client.cell a with
    | none => exact .none
    | some client => exact .some (lasting client)
  · rw [if_neg equal]
    exact cells_refl _

theorem lasting (frame : Frame s t) {a : ClientId} {client : Client}
    (used : s.clients.client.cell a = some client) :
    ∃ after, t.clients.client.cell a = some after ∧
      Client.Lasting client after := by
  have kept := frame.cells a
  rw [used] at kept
  cases kept' : t.clients.client.cell a with
  | none =>
      rw [kept'] at kept
      cases kept
  | some after =>
      rw [kept'] at kept
      cases kept with
      | some lasting => exact ⟨after, rfl, lasting⟩

end Frame

theorem delClient_frame :
    Frame s (s.onClients (Clients.delClient env.wild target)) :=
  Frame.of_cells (Clients.delClient_cells _ _ _).1
    (Clients.delClient_cells _ _ _).2 rfl rfl rfl

theorem unlinkUp_frame {uplink : ClientId} {change : Server → Server}
    (hops : ∀ leaf, (change leaf).hops = leaf.hops) :
    Ensures (Frame s) (s.unlinkUp uplink change) := by
  unfold unlinkUp
  exact Ensures.bind fun _ _ => Frame.modifyClient (Client.Lasting.onServer hops)

theorem exitUser_frame {client : Client} :
    Ensures (Frame s) (s.exitUser target client) := by
  unfold exitUser
  split
  · exact Frame.refl s
  · refine Ensures.bind fun uplink _ => ?_
    have marked : Frame s (s.modifyClient target (·.setFlag flagsDead)) :=
      Frame.modifyClient Client.Lasting.setDead
    refine Outcome.imp (unlinkUp_frame fun _ => rfl) fun t unlinked => ?_
    refine marked.trans (Frame.trans ?_ unlinked)
    exact Frame.of_cells rfl rfl rfl rfl rfl

theorem exitServer_marks {exit : ClientId → State → Except Stop State}
    (each : ∀ target s, Ensures (Frame s) (exit target s)) {client : Client}
    (alive : ¬client.isDead = true) :
    Ensures (Frame (s.modifyClient target (·.setFlag flagsDead)))
      (s.exitServer exit target client) := by
  have turn : ∀ (q r : State), Frame q r → ∀ target : ClientId,
      Ensures (Frame q) (exit target r) := fun q r before target =>
    Outcome.imp (each target r) fun _ after => before.trans after
  unfold exitServer
  rw [if_neg alive]
  refine Ensures.bind fun server _ => ?_
  refine Outcome.bind (Outcome.foldlM (Frame _) (Frame.refl _)
    fun r before user _ => turn _ r before user) fun r before => ?_
  refine Ensures.bind fun server _ => ?_
  refine Outcome.bind (Outcome.foldlM (Frame _) before
    fun r before leaf _ => turn _ r before leaf) fun r before => ?_
  have listed : Frame (s.modifyClient target (·.setFlag flagsDead))
      (r.onClients fun clients =>
        { clients with
          serverList := Dlink.delete target clients.serverList
          exitedList := Dlink.add target clients.exitedList }) :=
    before.trans (Frame.of_cells rfl rfl rfl rfl rfl)
  split
  · exact listed
  · exact Outcome.imp (unlinkUp_frame fun _ => rfl) fun t unlinked =>
      listed.trans unlinked

theorem exitServer_frame {exit : ClientId → State → Except Stop State}
    (each : ∀ target s, Ensures (Frame s) (exit target s)) {client : Client} :
    Ensures (Frame s) (s.exitServer exit target client) := by
  by_cases dead : client.isDead = true
  · rw [exitServer, if_pos dead]
    exact Frame.refl s
  · exact (exitServer_marks each dead).imp fun t after =>
      (Frame.modifyClient Client.Lasting.setDead).trans after

theorem exitClient_frame (depth : Nat) (target : ClientId) (s : State) :
    Ensures (Frame s) (exitClient env.wild depth target s) := by
  induction depth generalizing target s with
  | zero => exact trivial
  | succ depth ih =>
      unfold exitClient
      refine Ensures.bind fun client _ => ?_
      split
      · exact Frame.refl s
      · exact Outcome.bind (exitServer_frame ih) fun t before =>
          before.trans delClient_frame
      · exact Outcome.bind exitUser_frame fun t before =>
          before.trans delClient_frame

theorem exit_frame : Ensures (Frame s) (s.exit env target) :=
  exitClient_frame _ _ _

end State

end RatboxServices
