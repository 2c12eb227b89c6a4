import RatboxServices.Net.RestService

namespace RatboxServices

/-! Every effect of a handler leaves the clients at rest, and the tables sound
if its hazard is a safe one. -/

theorem Client.present_onServer (change : Server → Server)
    (client : Client) :
    (client.onServer change).present = client.present := by
  unfold onServer
  split
  · rename_i leaf part
    simp [present, part, isDead]
  · rfl

namespace Clients

variable {s t : Clients} {target b : ClientId} {client : Client}
  {change : Client → Client} {good : Prop} {uplink : Option ClientId}

namespace AtRest

theorem newcomer (rest : AtRest good uplink s)
    (here : client.present = true)
    (tree : t.Tree (insert s.client.next s.present))
    (tabled : good → t.Tabled (insert s.client.next s.present))
    (shape : SameShape (s.withNew client) t)
    (present : t.present = (s.withNew client).present)
    (serviceList : t.serviceList = s.serviceList) :
    AtRest good uplink t := by
  have linked := present.trans (present_withNew here)
  have kept (observe : Client → Bool) {a : ClientId}
      (is : s.shows observe a = true) :
      (s.withNew client).shows observe a = true := by
    have old : a ≠ s.client.next := by
      rintro rfl
      rw [shows, Heap.cell_next] at is
      cases is
    rw [withNew_shows _ old]
    exact is
  refine rest.of_kinds (linked ▸ tree) (fun sound => linked ▸ tabled sound)
    (fun a is => ?_) (fun a is => ?_) serviceList
  · rw [shape.service]
    exact kept Client.isService is
  · rw [shape.server]
    exact kept Client.isServer is

theorem linkUser (rest : AtRest good uplink s)
    (new : Client.NewUser b client) (server : s.isServer b = true)
    (cells : t.client = (s.withNew client).client)
    (serviceList : t.serviceList = s.serviceList)
    (tabled : good → t.Tabled (insert s.client.next s.present)) :
    AtRest good uplink (t.modify b (·.onServer fun leaf =>
      { leaf with users := Dlink.add s.client.next leaf.users })) := by
  obtain ⟨person, part⟩ := new.part
  have here : client.present = true := by
    simp [Client.present, part, new.alive]
  have fits : s.Fits client := by
    refine ⟨fun _ => by simp [new.uplink], fun is => ?_, fun c on => ?_,
      fun leaf is => ?_⟩
    · simp [Client.isService, part] at is
    · rw [new.uplink, Option.some.injEq] at on
      exact on ▸ server
    · rw [part] at is
      cases is
  have tree : t.Tree s.present :=
    (rest.tree.alloc fits next_not_present).of_cells cells
  have there : t.client.cell s.client.next = some client := by
    rw [cells]
    exact withNew_next
  have shape : SameShape (s.withNew client) t := .of_cells cells
  refine rest.newcomer here ?_ (fun sound => ?_)
    (shape.trans (.onServer _)) ?_ serviceList
  · refine tree.linkUser ?_ ?_ next_not_present
    · simp [isUser, there, Client.isUser, part]
    · simp [uplinkOf, there, new.uplink]
  · exact (tabled sound).modify
      (fun client => (State.onServer_name _ client).1)
      fun client => (State.onServer_name _ client).2
  · rw [present_modify (Client.present_onServer _)]
    exact present_of_cells cells

theorem linkServer (rest : AtRest good uplink s)
    (new : Client.NewServer (some b) client) (server : s.isServer b = true)
    (cells : t.client = ((s.withNew client).modify b
      (·.onServer fun leaf => { leaf with
        servers := Dlink.add s.client.next leaf.servers })).client)
    (serviceList : t.serviceList = s.serviceList)
    (tabled : good → t.Tabled (insert s.client.next s.present)) :
    AtRest good uplink t := by
  obtain ⟨hops, part⟩ := new.part
  have here : client.present = true := by
    simp [Client.present, part, new.alive]
  have fits : s.Fits client := by
    refine ⟨fun is => ?_, fun is => ?_, fun c on => ?_, fun leaf is => ?_⟩
    · simp [Client.isUser, part] at is
    · simp [Client.isService, part] at is
    · rw [new.uplink, Option.some.injEq] at on
      exact on ▸ server
    · rw [part] at is
      cases is
      exact ⟨rfl, rfl⟩
  have tree := rest.tree.alloc fits next_not_present
  have shape : SameShape (s.withNew client) t :=
    (SameShape.onServer _).trans (.of_cells cells)
  refine rest.newcomer here ?_ tabled shape ?_ serviceList
  · refine (tree.linkServer ?_ ?_ next_not_present).of_cells cells
    · simp [isServer, withNew_next, Client.isServer, part]
    · simp [uplinkOf, withNew_next, new.uplink]
  · rw [present_of_cells cells]
    exact present_modify (Client.present_onServer _)

theorem linkUplink (rest : AtRest good uplink s)
    (new : Client.NewServer none client)
    (cells : t.client = (s.withNew client).client)
    (serviceList : t.serviceList = s.serviceList)
    (tabled : good → t.Tabled (insert s.client.next s.present)) :
    AtRest good (some s.client.next) t := by
  obtain ⟨hops, part⟩ := new.part
  have here : client.present = true := by
    simp [Client.present, part, new.alive]
  have fits : s.Fits client := by
    refine ⟨fun is => ?_, fun is => ?_, fun c on => ?_, fun leaf is => ?_⟩
    · simp [Client.isUser, part] at is
    · simp [Client.isService, part] at is
    · rw [new.uplink] at on
      cases on
    · rw [part] at is
      cases is
      exact ⟨rfl, rfl⟩
  have tree := rest.tree.alloc fits next_not_present
  have there : t.client.cell s.client.next = some client := by
    rw [cells]
    exact withNew_next
  have linked : AtRest good uplink t := by
    refine rest.newcomer here ?_ tabled (.of_cells cells)
      (present_of_cells cells) serviceList
    refine (tree.of_set fun a b on => ?_).of_cells cells
    rw [Set.mem_insert_iff]
    refine or_iff_right ?_
    rintro rfl
    simp [uplinkOf, withNew_next, new.uplink] at on
  refine { linked with uplink := ?_ }
  rintro _ ⟨⟩
  simp [isServer, there, Client.isServer, part]

theorem relink (wild : Wild) (rest : AtRest good uplink s)
    (used : s.client.cell target = some client)
    (linked : good → target ∈ s.present)
    (bones : ∀ client, (change client).part.bones = client.part.bones)
    (up : ∀ client, (change client).uplink = client.uplink)
    (kept : ∀ client, (change client).present = client.present) :
    AtRest good uplink
      (((s.delClient wild target).modify target change).addClient target) := by
  have deleted := delClient_cells wild target s
  have added := addClient_cells target
    ((s.delClient wild target).modify target change)
  have shape : SameShape s ((s.delClient wild target).modify target change) :=
    (SameShape.of_cells deleted.1).trans (.modify (fun client _ =>
      Part.kind_of_bones (bones client)) up)
  have after : (((s.delClient wild target).modify target
      change).addClient target).present = s.present := by
    rw [present_of_cells added.1, ← present_of_cells deleted.1]
    exact present_modify kept
  refine rest.of_shape ?_ (fun sound => ?_)
    (shape.trans (.of_cells added.1)) (added.2.trans deleted.2)
  · rw [after]
    exact ((rest.tree.of_cells deleted.1).modify (fun client _ =>
      bones client) up).of_cells added.1
  · have there : (s.delClient wild target).client.cell target =
        some client := deleted.1 ▸ used
    have unlinked : ((s.delClient wild target).modify target change).Tabled
        (s.present \ {target}) :=
      ((rest.tabled sound).delClient wild used
        (linked sound)).modify_unlinked fun here => here.2 rfl
    have again := unlinked.addClient (Heap.modify_of_cell there)
      fun here => here.2 rfl
    rw [Set.insert_sdiff_singleton, Set.insert_eq_of_mem (linked sound)]
      at again
    rw [after]
    exact again

end AtRest

end Clients

namespace State

variable {env : Env} {r s t : State} {target a : ClientId} {good : Prop}

def uplinkHere (s : State) : Bool :=
  match s.uplinkP with
  | none => true
  | some target => !s.clients.isExited target

/-- Every service that `signoff_server` unlinks is linked, and so is the uplink
that exits with it. -/
def signoffSafe (s : State) : Bool :=
  s.offline ||
    (s.clients.serviceList.all s.clients.isIntroduced && s.uplinkHere)

def acceptSafe (s : State) : Bool :=
  s.clients.serviceList.all fun a =>
    s.clients.isDisabled a || !s.clients.isIntroduced a

def TableSafe (s : State) : Hazard → Prop
  | .signoff => s.signoffSafe = true
  | .accept => s.acceptSafe = true
  | .exitUplink => s.uplinkHere = true
  | .strand => True
  | .revive => True

namespace AtRest

theorem of_clients (rest : AtRest good s) (clients : t.clients = s.clients)
    (uplink : t.uplinkP = s.uplinkP) : AtRest good t := by
  rw [AtRest, clients, uplink]
  exact rest

theorem uplink_present (rest : AtRest good s)
    (uplink : s.uplinkP = some target) (here : s.uplinkHere = true) :
    target ∈ s.clients.present := by
  obtain ⟨client, leaf, used, part⟩ :=
    Clients.exists_part_of_isServer (rest.uplink target uplink)
  have plain : client.isService = false := by
    simp [Client.isService, part]
  rw [uplinkHere, uplink] at here
  rw [Clients.mem_present used, Client.present_of_plain plain]
  simpa [Clients.isExited, Clients.shows, used] using here

theorem exit_uplink (rest : AtRest good s)
    (uplink : s.uplinkP = some target)
    (here : good → s.uplinkHere = true) :
    Outcome (fun _ => False) (AtRest good) (s.exit env target) := by
  obtain ⟨client, leaf, used, _⟩ :=
    Clients.exists_part_of_isServer (rest.uplink target uplink)
  exact exit_atRest rest used fun sound _ =>
    rest.uplink_present uplink (here sound)

theorem found (rest : AtRest good s) {name : CString}
    (found : s.clients.Finds name target) :
    ∃ client, s.clients.client.cell target = some client ∧
      (good → target ∈ s.clients.present) := by
  obtain known | named := found
  · obtain ⟨client, used⟩ := Clients.cell_of_findClient known
    exact ⟨client, used, fun sound => (rest.tabled sound).of_findClient known⟩
  · obtain ⟨client, used⟩ := Clients.cell_of_findNamedClient named
    exact ⟨client, used, fun sound =>
      (rest.tabled sound).of_findNamedClient named⟩

end AtRest

theorem uplinkP_map {change : Lconn → Lconn}
    (kept : ∀ conn, (change conn).clientP = conn.clientP) :
    (s.serverP.map change).bind Lconn.clientP = s.uplinkP := by
  unfold uplinkP
  cases s.serverP with
  | none => rfl
  | some conn => exact kept conn

theorem signoffServices_exited (wild : Clients.Wild) (clients : Clients)
    (a : ClientId) :
    (clients.signoffServices wild).isExited a = clients.isExited a := by
  unfold Clients.signoffServices
  generalize clients.serviceList = list
  induction list generalizing clients with
  | nil => rfl
  | cons serviceP others ih =>
      rw [List.foldl_cons, ih]
      have marks : Clients.SameMarks Client.isDead clients
          ((clients.modify serviceP
            (·.clearStatus serviceIntroduced)).delClient wild serviceP) := by
        refine (Clients.SameMarks.modify fun client => ?_).trans
          (Clients.SameMarks.delClient wild)
        unfold Client.clearStatus Client.onService
        split <;> rfl
      exact marks.shows a

theorem signoffServer_atRest (rest : AtRest good s)
    (safe : good → s.signoffSafe = true) (linked : s.serverP.isSome = true) :
    Outcome (fun _ => False) (AtRest good) (s.signoffServer env) := by
  obtain ⟨conn, link⟩ := Option.isSome_iff_exists.mp linked
  have there : s.uplink = .ok conn := by
    rw [State.uplink, link]
  unfold signoffServer
  rw [there]
  refine Outcome.bind (Outcome.ok rfl : Outcome _ (conn = ·) _) ?_
  rintro _ rfl
  split
  · exact rest
  · rename_i live
    have checked (sound : good) :
        s.clients.serviceList.all s.clients.isIntroduced = true ∧
          s.uplinkHere = true := by
      have either := safe sound
      have online : s.offline = false := by
        rw [offline, link]
        simpa using live
      rw [signoffSafe, online, Bool.false_or, Bool.and_eq_true] at either
      exact either
    have same : (s.signoffState env).uplinkP = s.uplinkP :=
      uplinkP_map fun _ => rfl
    have signed : AtRest good (s.signoffState env) := by
      rw [AtRest, same]
      refine Clients.AtRest.signoffServices env.wild rest fun sound a listed =>
        ?_
      exact List.all_eq_true.mp (checked sound).1 a listed
    split
    · exact signed
    · rename_i target uplink
      have ours : s.uplinkP = some target := by
        rw [uplinkP, link]
        exact uplink
      refine signed.exit_uplink (same.trans ours) fun sound => ?_
      have here := (checked sound).2
      rw [uplinkHere, ours] at here
      rw [uplinkHere, same, ours]
      show (!(s.clients.signoffServices env.wild).isExited target) = true
      rw [signoffServices_exited]
      exact here

theorem isServer_of_serverOf {clients : Clients} {leaf : Server}
    (there : clients.serverOf a = .ok leaf) : clients.isServer a = true := by
  unfold Clients.serverOf at there
  split at there
  · rename_i client used
    split at there
    · rename_i part
      exact Clients.isServer_of_part used part
    · cases there
  · cases there

theorem AtRest.tabled_withNew {client : Client} (rest : AtRest good s)
    (sound : good) : (s.clients.withNew client).Tabled s.clients.present := by
  refine (rest.tabled sound).alloc fun a here => ?_
  rintro rfl
  exact Clients.next_not_present here

theorem linkUser_atRest {uplinkP : ClientId} {user : Client}
    (rest : AtRest good s) (new : Client.NewUser uplinkP user)
    (linked : s.linkUser uplinkP user = .ok t) : AtRest good t := by
  obtain ⟨leaf, there, rfl⟩ := linkUser_eq_ok linked
  obtain ⟨person, part⟩ := new.part
  have added := Clients.addClient_cells s.clients.client.next
    (s.clients.withNew user)
  have server : s.clients.isServer uplinkP = true := by
    have known : (s.addUser user).clients.isServer uplinkP = true :=
      isServer_of_serverOf there
    have cells : (s.addUser user).clients.client =
        (s.clients.withNew user).client := added.1
    rw [Clients.isServer, cells] at known
    have old : uplinkP ≠ s.clients.client.next := by
      rintro rfl
      rw [Clients.withNew_next] at known
      simp [Client.isServer, part] at known
    exact (Clients.withNew_shows Client.isServer old).symm.trans known
  refine Clients.AtRest.linkUser rest new server added.1 added.2
    fun sound => ?_
  exact ((rest.tabled_withNew sound).addClient Clients.withNew_next
    Clients.next_not_present).of_cells rfl rfl rfl fun _ _ => rfl

theorem linkLeaf_atRest {source : CString} {clientP : ClientId}
    {server : Client} (rest : AtRest good s)
    (found : s.clients.Finds source clientP)
    (new : Client.NewServer (some clientP) server)
    (linked : s.linkLeaf clientP server = .ok t) : AtRest good t := by
  obtain ⟨leaf, there, rfl⟩ := linkLeaf_eq_ok linked
  obtain ⟨client, used, _⟩ := rest.found found
  have old : clientP ≠ s.clients.client.next :=
    Nat.ne_of_lt (Heap.lt_next used)
  have above : s.clients.isServer clientP = true :=
    (Clients.withNew_shows Client.isServer old).symm.trans
      (isServer_of_serverOf there)
  have added := Clients.addClient_cells s.clients.client.next
    ((s.clients.withNew server).modify clientP (·.onServer fun leaf =>
      { leaf with
        servers := Dlink.add s.clients.client.next leaf.servers }))
  refine Clients.AtRest.linkServer rest new above added.1 added.2
    fun sound => ?_
  have tabled : ((s.clients.withNew server).modify clientP
      (·.onServer fun leaf => { leaf with
        servers := Dlink.add s.clients.client.next leaf.servers })).Tabled
        s.clients.present :=
    (rest.tabled_withNew sound).modify
      (fun client => (onServer_name _ client).1)
      fun client => (onServer_name _ client).2
  have there : ((s.clients.withNew server).modify clientP
      (·.onServer fun leaf => { leaf with
        servers := Dlink.add s.clients.client.next leaf.servers })
      ).client.cell s.clients.client.next = some server := by
    refine (Heap.modify_cell_of_ne _ _ old.symm).trans ?_
    exact Clients.withNew_next
  exact (tabled.addClient there Clients.next_not_present).of_cells rfl rfl
    rfl fun _ _ => rfl

theorem acceptUplink_atRest {conn : Lconn} {now : Int} {client : Client}
    (rest : AtRest good s) (safe : good → s.acceptSafe = true)
    (link : s.serverP = some conn) (new : Client.NewServer none client) :
    AtRest good (s.acceptUplink now client) := by
  have uplink : (s.acceptUplink now client).uplinkP =
      some s.clients.client.next := by
    show ((s.serverP.map (Lconn.introduce now s.clients.client.next)).map
      (Lconn.setFlag connFlagsSentburst)).bind Lconn.clientP = _
    rw [link]
    rfl
  have added := Clients.addClient_cells s.clients.client.next
    (s.clients.withNew client)
  have linked : Clients.AtRest good (some s.clients.client.next)
      ((s.allocClient client).linkServer s.clients.client.next).clients := by
    refine Clients.AtRest.linkUplink rest new added.1 added.2 fun sound => ?_
    exact ((rest.tabled_withNew sound).addClient Clients.withNew_next
      Clients.next_not_present).of_cells rfl rfl rfl fun _ _ => rfl
  rw [AtRest, uplink]
  refine linked.introduceServices fun sound a listed enabled => ?_
  have service : s.clients.isService a = true :=
    rest.services a (added.2 ▸ listed)
  obtain ⟨ours, used, _⟩ := Clients.exists_of_isService service
  have same : ((s.allocClient client).linkServer
      s.clients.client.next).clients.client.cell a =
        s.clients.client.cell a := by
    have cells : ((s.allocClient client).linkServer
      s.clients.client.next).clients.client =
        (s.clients.withNew client).client := added.1
    rw [cells]
    exact (Heap.alloc_cell _ _ _).trans
      (if_neg (Nat.ne_of_lt (Heap.lt_next used)))
  rw [Clients.isDisabled, same] at enabled
  rw [Clients.isIntroduced, same]
  have either := List.all_eq_true.mp (safe sound) a (added.2 ▸ listed)
  rw [Bool.or_eq_true, Clients.isDisabled, enabled] at either
  simpa [Clients.isIntroduced] using either

theorem Relinked.uplinkP (before : Relinked r s) :
    s.uplinkP = r.uplinkP := by
  have rel := before.serverP
  unfold State.uplinkP
  generalize r.serverP = old at rel
  generalize s.serverP = new at rel
  cases rel with
  | none => rfl
  | some tame => exact tame.clientP

theorem Relinked.signoffSafe (before : Relinked r s) :
    s.signoffSafe = r.signoffSafe := by
  rw [State.signoffSafe, State.signoffSafe, before.offline, before.clients,
    uplinkHere, uplinkHere, before.uplinkP, before.clients]

theorem Effect.atRest
    (effect : Effect env (fun r hazard => good → TableSafe r hazard) Chan s t)
    (rest : AtRest good s) : AtRest good t := by
  cases effect with
  | chans moved kept => exact rest
  | strand allowed moved kept => exact rest
  | client benign => exact Clients.AtRest.benign rest benign
  | counters firstKill numKill => exact rest
  | exit found exited =>
      obtain ⟨client, used, linked⟩ := rest.found found
      exact (exit_atRest rest used fun sound _ => linked sound).of_ok exited
  | exitUplink allowed link uplink exited =>
      rename_i conn target
      have ours : s.uplinkP = some target := by
        rw [uplinkP, link]
        exact uplink
      exact (rest.exit_uplink ours allowed).of_ok exited
  | linkUser new linked => exact linkUser_atRest rest new linked
  | linkLeaf found new linked => exact linkLeaf_atRest rest found new linked
  | rename name found user =>
      obtain ⟨client, used, linked⟩ := rest.found found
      exact Clients.AtRest.relink env.wild rest used linked (fun _ => rfl)
        (fun _ => rfl) fun _ => rfl
  | revive before allowed found service =>
      obtain ⟨client, used, linked⟩ := rest.found found
      exact Clients.AtRest.introduceAgain env.wild rest service linked
  | link tame =>
      exact rest.of_clients rfl (uplinkP_map fun conn => (tame conn).clientP)
  | signoff before allowed signed =>
      refine (signoffServer_atRest rest (fun sound => ?_) ?_).of_ok signed
      · rw [before.signoffSafe]
        exact allowed sound
      · unfold signoffServer at signed
        obtain ⟨conn, link, _⟩ := Except.bind_eq_ok.mp signed
        rw [uplink_eq_ok link]
        rfl
  | accept allowed link noUplink sid new =>
      exact acceptUplink_atRest rest allowed link new


end State

end RatboxServices
