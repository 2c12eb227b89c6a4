import RatboxServices.Net.ExitFrame
import RatboxServices.Net.Tree

namespace RatboxServices

/-! `exit_client` in the tree: it takes everything behind a server with it, it
never stops on the way, and if the tables were sound before they are after. -/

namespace Clients

def isExited (s : Clients) (a : ClientId) : Bool :=
  s.shows Client.isDead a

end Clients

namespace State

variable {env : Env} {r s t : State} {linkedSet : Set ClientId}
  {target a : ClientId} {client : Client} {good : Prop}

theorem Frame.shape (frame : Frame s t) :
    Clients.SameShape s.clients t.clients := by
  have kept {observe : Client → Bool}
      (same : ∀ old new, Client.Lasting old new → observe new = observe old)
      (a : ClientId) :
      t.clients.shows observe a = s.clients.shows observe a := by
    have cells := frame.cells a
    unfold Clients.shows
    generalize s.clients.client.cell a = old at cells
    generalize t.clients.client.cell a = new at cells
    cases cells with
    | none => rfl
    | some lasting => exact same _ _ lasting
  have part {old new : Client} (lasting : Client.Lasting old new) :
      new.isUser = old.isUser ∧ new.isServer = old.isServer ∧
        new.isService = old.isService := by
    have same := lasting.part
    unfold Client.isUser Client.isServer Client.isService
    cases before : old.part <;> cases after : new.part <;>
      simp_all [Part.bare]
  constructor
  · exact kept fun _ _ lasting => (part lasting).1
  · exact kept fun _ _ lasting => (part lasting).2.1
  · exact kept fun _ _ lasting => (part lasting).2.2
  · intro a
    have cells := frame.cells a
    unfold Clients.uplinkOf
    generalize s.clients.client.cell a = old at cells
    generalize t.clients.client.cell a = new at cells
    cases cells with
    | none => rfl
    | some lasting => exact lasting.uplink

theorem Frame.tabled (frame : Frame s t)
    (nameTable : t.clients.nameTable = s.clients.nameTable)
    (uidTable : t.clients.uidTable = s.clients.uidTable)
    (unlinkedDeletes :
      t.clients.unlinkedDeletes = s.clients.unlinkedDeletes)
    (tabled : s.clients.Tabled linkedSet) : t.clients.Tabled linkedSet := by
  have keys (a : ClientId) : t.clients.nameKey a = s.clients.nameKey a ∧
      t.clients.uidKey a = s.clients.uidKey a := by
    have cells := frame.cells a
    unfold Clients.nameKey Clients.uidKey
    generalize s.clients.client.cell a = old at cells
    generalize t.clients.client.cell a = new at cells
    cases cells with
    | none => exact ⟨rfl, rfl⟩
    | some lasting => simp [lasting.name, lasting.uid]
  exact tabled.of_keys nameTable uidTable unlinkedDeletes
    (fun a _ => (keys a).1) fun a _ => (keys a).2

/-- From one state to another some clients of a region exited, and they and
only they are not linked any more. -/
structure Exited (good : Prop) (Region : ClientId → Prop)
    (linkedSet rest : Set ClientId) (s t : State) : Prop where
  tree : t.clients.Tree rest
  tabled : good → t.clients.Tabled rest
  frame : Frame s t
  subset : rest ⊆ linkedSet
  region : ∀ a ∈ linkedSet, a ∉ rest → Region a
  exited : ∀ a, t.clients.isExited a = true ↔
    s.clients.isExited a = true ∨ (a ∈ linkedSet ∧ a ∉ rest)

namespace Exited

variable {Region Later : ClientId → Prop} {middle rest : Set ClientId}

theorem mono (exited : Exited good Region linkedSet rest s t)
    (wider : ∀ a, Region a → Later a) :
    Exited good Later linkedSet rest s t :=
  { exited with
    region := fun a inside outside =>
      wider a (exited.region a inside outside) }

theorem alive (exited : Exited good Region linkedSet rest s t)
    (inside : a ∈ rest) (before : s.clients.isExited a = false) :
    t.clients.isExited a = false := by
  rw [← Bool.not_eq_true, exited.exited, before]
  rintro (impossible | ⟨_, outside⟩)
  · cases impossible
  · exact outside inside

theorem trans (first : Exited good Region linkedSet middle r s)
    (second : Exited good Later middle rest s t) :
    Exited good (fun a => Region a ∨ Later a) linkedSet rest r t where
  tree := second.tree
  tabled := second.tabled
  frame := first.frame.trans second.frame
  subset := second.subset.trans first.subset
  region := by
    intro a inside outside
    by_cases between : a ∈ middle
    · exact Or.inr (second.region a between outside)
    · exact Or.inl (first.region a inside between)
  exited := by
    intro a
    rw [second.exited, first.exited]
    constructor
    · rintro ((before | ⟨inside, outside⟩) | ⟨between, outside⟩)
      · exact Or.inl before
      · exact Or.inr ⟨inside, fun still => outside (second.subset still)⟩
      · exact Or.inr ⟨first.subset between, outside⟩
    · rintro (before | ⟨inside, outside⟩)
      · exact Or.inl (Or.inl before)
      · by_cases between : a ∈ middle
        · exact Or.inr ⟨between, outside⟩
        · exact Or.inl (Or.inr ⟨inside, between⟩)

end Exited

theorem serverOf_of_isServer {clients : Clients}
    (server : clients.isServer a = true) :
    ∃ client leaf, clients.client.cell a = some client ∧
      client.part = .server leaf ∧ clients.serverOf a = .ok leaf := by
  obtain ⟨client, leaf, used, part⟩ := Clients.exists_part_of_isServer server
  exact ⟨client, leaf, used, part, by simp [Clients.serverOf, used, part]⟩

theorem unlinkUp_eq {change : Server → Server}
    (server : s.clients.isServer a = true) :
    s.unlinkUp a change = .ok (s.modifyClient a (·.onServer change)) := by
  obtain ⟨client, leaf, _, _, there⟩ := serverOf_of_isServer server
  unfold unlinkUp
  rw [there]
  rfl

theorem setDead_exited (used : s.clients.client.cell target = some client) :
    (s.modifyClient target (·.setFlag flagsDead)).clients.isExited a = true ↔
      s.clients.isExited a = true ∨ a = target := by
  show Clients.shows Client.isDead (Clients.modify target _ s.clients) a =
    true ↔ _
  unfold Clients.isExited Clients.shows Clients.modify
  dsimp only
  rw [Heap.modify_cell]
  by_cases equal : a = target
  · subst equal
    simp [used, Client.isDead, Client.setFlag, flagsDead]
  · simp [equal]

/-- A client that is on its way out: it is still in the tables, but no longer
in the lists of its server. -/
structure Leaving (good : Prop) (target : ClientId)
    (linkedSet middle : Set ClientId) (s t : State) : Prop where
  tree : t.clients.Tree (middle \ {target})
  tabled : good → t.clients.Tabled middle
  frame : Frame s t
  subset : middle ⊆ linkedSet
  region : ∀ a ∈ linkedSet, a ∉ middle → s.clients.Under target a
  exited : ∀ a, t.clients.isExited a = true ↔
    s.clients.isExited a = true ∨ a = target ∨ (a ∈ linkedSet ∧ a ∉ middle)

theorem Leaving.delClient {middle : Set ClientId}
    (leaving : Leaving good target linkedSet middle s t)
    (used : s.clients.client.cell target = some client)
    (here : target ∈ middle) :
    Exited good (s.clients.Under target) linkedSet (middle \ {target}) s
      (t.onClients (Clients.delClient env.wild target)) where
  tree := leaving.tree.of_cells (Clients.delClient_cells _ _ _).1
  tabled := by
    intro sound
    obtain ⟨after, still, _⟩ := leaving.frame.lasting used
    exact (leaving.tabled sound).delClient env.wild still here
  frame := leaving.frame.trans delClient_frame
  subset := fun a inside => leaving.subset inside.1
  region := by
    intro a inside outside
    by_cases equal : a = target
    · subst equal
      exact .self
    · exact leaving.region a inside fun member => outside ⟨member, equal⟩
  exited := by
    intro a
    have cells := (Clients.delClient_cells env.wild target t.clients).1
    have same : (t.onClients (Clients.delClient env.wild target)
        ).clients.isExited a = t.clients.isExited a := by
      unfold Clients.isExited Clients.shows
      rw [onClients_clients, cells]
    rw [same, leaving.exited, Set.mem_sdiff, Set.mem_singleton_iff]
    constructor
    · rintro (before | rfl | ⟨inside, outside⟩)
      · exact Or.inl before
      · exact Or.inr ⟨leaving.subset here, fun still => still.2 rfl⟩
      · exact Or.inr ⟨inside, fun still => outside still.1⟩
    · rintro (before | ⟨inside, outside⟩)
      · exact Or.inl before
      · by_cases equal : a = target
        · exact Or.inr (Or.inl equal)
        · exact Or.inr (Or.inr ⟨inside, fun member =>
            outside ⟨member, equal⟩⟩)

theorem isDead_onServer (change : Server → Server) (client : Client) :
    (client.onServer change).isDead = client.isDead := by
  unfold Client.onServer
  split <;> rfl

theorem unlink_exited {b : ClientId} {change : Server → Server} :
    (s.modifyClient b (·.onServer change)).clients.isExited a =
      s.clients.isExited a :=
  (Clients.SameMarks.modify (isDead_onServer change)).shows a

/-- `exit_user` before the user leaves its server. -/
def userGone (target : ClientId) (s : State) : State :=
  ((s.modifyClient target (·.setFlag flagsDead)).onChans fun chans =>
    (chans.userChannels target).foldl (fun chans mptr =>
      chans.delChmember mptr) chans).onClients fun clients =>
        { clients with
          userList := Dlink.delete target clients.userList
          exitedList := Dlink.add target clients.exitedList }

theorem userGone_frame : Frame s (s.userGone target) := by
  have marked : Frame s (s.modifyClient target (·.setFlag flagsDead)) :=
    Frame.modifyClient Client.Lasting.setDead
  exact marked.trans (Frame.of_cells rfl rfl rfl rfl rfl)

theorem exitUser_leaving (tree : s.clients.Tree linkedSet)
    (tabled : good → s.clients.Tabled linkedSet)
    (used : s.clients.client.cell target = some client)
    (user : client.isUser = true) (live : client.isDead = false) :
    Outcome (fun _ => False) (Leaving good target linkedSet linkedSet s)
      (s.exitUser target client) := by
  have isUser : s.clients.isUser target = true := by
    simp [Clients.isUser, used, user]
  obtain ⟨b, uplink⟩ := Option.isSome_iff_exists.mp (tree.user target isUser)
  have on : client.uplink = some b := by
    simpa [Clients.uplinkOf, used] using uplink
  have frame : Frame s (s.userGone target) := userGone_frame
  have shape := frame.shape
  have above : (s.userGone target).clients.isServer b = true :=
    (shape.server b).trans (tree.above target b uplink).2
  have returned : s.exitUser target client = .ok ((s.userGone
      target).modifyClient b (·.onServer fun server =>
        { server with users := Dlink.delete target server.users })) := by
    unfold exitUser
    rw [live, on]
    exact unlinkUp_eq above
  rw [returned]
  have marked : (s.modifyClient target (·.setFlag flagsDead)).clients.Tree
      linkedSet := tree.modify (fun _ _ => rfl) fun _ => rfl
  have gone : (s.userGone target).clients.Tree linkedSet :=
    marked.of_cells rfl
  have left : Frame s ((s.userGone target).modifyClient b
      (·.onServer fun server =>
        { server with users := Dlink.delete target server.users })) :=
    frame.trans (Frame.modifyClient (Client.Lasting.onServer fun _ => rfl))
  refine ⟨?_, fun sound => left.tabled rfl rfl rfl (tabled sound), left,
    subset_rfl, fun a inside outside => absurd inside outside, fun a => ?_⟩
  · exact gone.unlinkUser ((shape.user target).trans isUser)
      ((shape.uplink target).trans uplink)
  · rw [unlink_exited]
    have marks : (s.userGone target).clients.isExited a = true ↔ _ :=
      setDead_exited used
    rw [marks]
    tauto

/-- What an exit does to a client that comes after another one, wherever it is
linked and live. -/
def ExitsTo (good : Prop) (exit : ClientId → State → Except Stop State)
    (least next : ClientId) : Prop :=
  ∀ (s : State) (linkedSet : Set ClientId) (target : ClientId),
    s.clients.client.next = next → least < target → target ∈ linkedSet →
    s.clients.isService target = false →
    s.clients.Tree linkedSet → (good → s.clients.Tabled linkedSet) →
    (∀ a ∈ linkedSet, s.clients.Under target a →
      s.clients.isExited a = false) →
    (s.clients.client.cell target).isSome = true →
    Outcome (fun _ => False) (fun t => ∃ rest,
      Exited good (s.clients.Under target) linkedSet rest s t) (exit target s)

theorem exits_exited {exit : ClientId → State → Except Stop State}
    (each : ExitsTo good exit target s.clients.client.next)
    (children : List ClientId) (nodup : children.Nodup)
    (on : ∀ c ∈ children, c ∈ linkedSet ∧
      s.clients.uplinkOf c = some target ∧ s.clients.isService c = false)
    (tree : s.clients.Tree linkedSet)
    (tabled : good → s.clients.Tabled linkedSet)
    (alive : ∀ a ∈ linkedSet, s.clients.Behind target a →
      s.clients.isExited a = false) :
    Outcome (fun _ => False) (fun t => ∃ rest,
      Exited good (s.clients.Behind target) linkedSet rest s t)
      (children.foldlM (fun s c => exit c s) s) := by
  induction children generalizing s linkedSet with
  | nil =>
      refine ⟨linkedSet, tree, tabled, Frame.refl s, subset_rfl,
        fun a inside outside => absurd inside outside, fun a => ?_⟩
      tauto
  | cons c others ih =>
      obtain ⟨here, uplink, person⟩ := on c (by simp)
      have lower := (tree.above c target uplink).1
      have used : (s.clients.client.cell c).isSome = true := by
        cases there : s.clients.client.cell c with
        | none => simp [Clients.uplinkOf, there] at uplink
        | some client => rfl
      rw [List.foldlM_cons]
      refine Outcome.bind (each s linkedSet c rfl lower here person tree tabled
        (fun a inside under => alive a inside ⟨c, uplink, under⟩) used) ?_
      rintro t ⟨middle, first⟩
      have shape := first.frame.shape
      have othersOn : ∀ d ∈ others, d ∈ middle ∧
          t.clients.uplinkOf d = some target ∧
            t.clients.isService d = false := by
        intro d later
        obtain ⟨inside, above, plain⟩ := on d (List.mem_cons_of_mem _ later)
        refine ⟨?_, (shape.uplink d).trans above, (shape.service d).trans plain⟩
        by_contra outside
        have same := tree.eq_of_under_sibling uplink above
          (first.region d inside outside)
        exact (List.nodup_cons.mp nodup).1 (same ▸ later)
      refine Outcome.imp (ih (first.frame.next ▸ each)
        (List.nodup_cons.mp nodup).2 othersOn first.tree first.tabled
        fun a inside behind => ?_) ?_
      · exact first.alive inside
          (alive a (first.subset inside) (shape.behind.mp behind))
      · rintro u ⟨rest, second⟩
        refine ⟨rest, (first.trans second).mono ?_⟩
        rintro a (under | behind)
        · exact ⟨c, uplink, under⟩
        · exact shape.behind.mp behind

/-- The server leaves `server_list`. -/
def serverGone (target : ClientId) (s : State) : State :=
  s.onClients fun clients =>
    { clients with
      serverList := Dlink.delete target clients.serverList
      exitedList := Dlink.add target clients.exitedList }

/-- `exit_server` once everything on the server is gone. -/
def leaveServer (target : ClientId) (client : Client) (s : State) :
    Except Stop State :=
  match client.uplink with
  | none => .ok (s.serverGone target)
  | some uplink =>
      (s.serverGone target).unlinkUp uplink fun server =>
        { server with servers := Dlink.delete target server.servers }

theorem onServer_name (change : Server → Server) (client : Client) :
    (client.onServer change).name = client.name ∧
      (client.onServer change).uid = client.uid := by
  unfold Client.onServer
  split <;> exact ⟨rfl, rfl⟩

theorem leaveServer_leaving {Region : ClientId → Prop}
    {middle : Set ClientId}
    (used : s.clients.client.cell target = some client)
    (server : client.isServer = true)
    (exited : Exited good Region linkedSet middle
      (s.modifyClient target (·.setFlag flagsDead)) r)
    (region : ∀ a, Region a → s.clients.Under target a) :
    Outcome (fun _ => False) (Leaving good target linkedSet middle s)
      (r.leaveServer target client) := by
  have marked : Frame s (s.modifyClient target (·.setFlag flagsDead)) :=
    Frame.modifyClient Client.Lasting.setDead
  have listed : Frame s (r.serverGone target) :=
    (marked.trans exited.frame).trans (Frame.of_cells rfl rfl rfl rfl rfl)
  have shape := listed.shape
  have tree : (r.serverGone target).clients.Tree middle :=
    exited.tree.of_cells rfl
  have tabled (sound : good) : (r.serverGone target).clients.Tabled middle :=
    (exited.tabled sound).of_cells rfl rfl rfl fun _ _ => rfl
  have within (a : ClientId) (inside : a ∈ linkedSet)
      (outside : a ∉ middle) : s.clients.Under target a :=
    region a (exited.region a inside outside)
  have gone (a : ClientId) : (r.serverGone target).clients.isExited a =
      true ↔ s.clients.isExited a = true ∨ a = target ∨
        (a ∈ linkedSet ∧ a ∉ middle) := by
    show r.clients.isExited a = true ↔ _
    rw [exited.exited, setDead_exited used]
    tauto
  have isServer : s.clients.isServer target = true := by
    simp [Clients.isServer, used, server]
  have same : s.clients.uplinkOf target = client.uplink := by
    simp [Clients.uplinkOf, used]
  unfold leaveServer
  split
  · rename_i root
    have alone := (shape.uplink target).trans (same.trans root)
    exact ⟨tree.unlinkRoot alone, tabled, listed, exited.subset, within, gone⟩
  · rename_i b behind
    have uplink := (shape.uplink target).trans (same.trans behind)
    rw [unlinkUp_eq (tree.above target b uplink).2]
    refine ⟨tree.unlinkServer ((shape.server target).trans isServer) uplink,
      fun sound => ?_, ?_, exited.subset, within, fun a => ?_⟩
    · exact (tabled sound).modify (fun client => (onServer_name _ client).1)
        fun client => (onServer_name _ client).2
    · exact listed.trans
        (Frame.modifyClient (Client.Lasting.onServer fun _ => rfl))
    · rw [unlink_exited]
      exact gone a

theorem exitMarked_leaving {exit : ClientId → State → Except Stop State}
    (each : ExitsTo good exit target s.clients.client.next)
    (used : s.clients.client.cell target = some client)
    (server : client.isServer = true) (here : target ∈ linkedSet)
    (tree : r.clients.Tree linkedSet)
    (tabled : good → r.clients.Tabled linkedSet)
    (marked : r = s.modifyClient target (·.setFlag flagsDead))
    (alive : ∀ a ∈ linkedSet, r.clients.Behind target a →
      r.clients.isExited a = false) :
    Outcome (fun _ => False) (fun t => ∃ middle, target ∈ middle ∧
      Leaving good target linkedSet middle s t)
      (do
        let server ← r.clients.serverOf target
        let s ← server.users.foldlM (fun s user => exit user s) r
        let server ← s.clients.serverOf target
        let s ← server.servers.foldlM (fun s leaf => exit leaf s) s
        s.leaveServer target client) := by
  have frame : Frame s r := by
    rw [marked]
    exact Frame.modifyClient Client.Lasting.setDead
  have isServer : r.clients.isServer target = true := by
    refine (frame.shape.server target).trans ?_
    simp [Clients.isServer, used, server]
  obtain ⟨first, leaf, there, part, read⟩ := serverOf_of_isServer isServer
  have users := tree.users target first leaf there part
  rw [read]
  refine Outcome.bind (Outcome.ok rfl : Outcome _ (· = leaf) _) ?_
  rintro _ rfl
  refine Outcome.bind (exits_exited (frame.next ▸ each) _ users.nodup
    (fun c listed => ?_) tree tabled alive) ?_
  · obtain ⟨inside, user, uplink⟩ := (users.mem_iff c).mp listed
    exact ⟨inside, uplink, (Clients.isUser_only user).2⟩
  rintro q ⟨middle, usersGone⟩
  have shape := usersGone.frame.shape
  obtain ⟨second, leaf, there, part, read⟩ :=
    serverOf_of_isServer ((shape.server target).trans isServer)
  have servers := usersGone.tree.servers target second leaf there part
  rw [read]
  refine Outcome.bind (Outcome.ok rfl : Outcome _ (· = leaf) _) ?_
  rintro _ rfl
  have later := usersGone.frame.next.trans frame.next
  refine Outcome.bind (exits_exited (later ▸ each) _ servers.nodup
    (fun c listed => ?_) usersGone.tree usersGone.tabled
    fun a inside behind => ?_) ?_
  · obtain ⟨inside, server, uplink⟩ := (servers.mem_iff c).mp listed
    exact ⟨inside, uplink, (Clients.isServer_only server).2⟩
  · exact usersGone.alive inside
      (alive a (usersGone.subset inside) (shape.behind.mp behind))
  rintro t ⟨rest, serversGone⟩
  have gone : Exited good (r.clients.Behind target) linkedSet rest r t :=
    (usersGone.trans serversGone).mono fun a behind =>
      behind.elim id fun later => shape.behind.mp later
  have still : target ∈ rest := by
    by_contra outside
    exact tree.ne_of_behind (gone.region target here outside) rfl
  rw [marked] at gone
  refine Outcome.imp (leaveServer_leaving used server gone fun a behind =>
    ?_) fun t leaving => ⟨rest, still, leaving⟩
  have behind : r.clients.Behind target a := by
    rw [marked]
    exact behind
  exact frame.shape.under.mp behind.under

theorem exitServer_leaving {exit : ClientId → State → Except Stop State}
    (each : ExitsTo good exit target s.clients.client.next) (here : target ∈ linkedSet)
    (tree : s.clients.Tree linkedSet)
    (tabled : good → s.clients.Tabled linkedSet)
    (used : s.clients.client.cell target = some client)
    (server : client.isServer = true) (live : client.isDead = false)
    (alive : ∀ a ∈ linkedSet, s.clients.Under target a →
      s.clients.isExited a = false) :
    Outcome (fun _ => False) (fun t => ∃ middle, target ∈ middle ∧
      Leaving good target linkedSet middle s t)
      (s.exitServer exit target client) := by
  have frame : Frame s (s.modifyClient target (·.setFlag flagsDead)) :=
    Frame.modifyClient Client.Lasting.setDead
  have markedTree : (s.modifyClient target
      (·.setFlag flagsDead)).clients.Tree linkedSet :=
    tree.modify (fun _ _ => rfl) fun _ => rfl
  unfold exitServer
  rw [live]
  refine exitMarked_leaving each used server here markedTree
    (fun sound => frame.tabled rfl rfl rfl (tabled sound)) rfl
    fun a inside behind => ?_
  rw [← Bool.not_eq_true, setDead_exited used]
  rintro (before | equal)
  · rw [alive a inside (frame.shape.under.mp behind.under)] at before
    cases before
  · exact markedTree.ne_of_behind behind equal

theorem exitClient_exited (depth : Nat)
    (enough : s.clients.client.next < depth + target)
    (here : target ∈ linkedSet)
    (used : s.clients.client.cell target = some client)
    (plain : client.isService = false) (tree : s.clients.Tree linkedSet)
    (tabled : good → s.clients.Tabled linkedSet)
    (alive : ∀ a ∈ linkedSet, s.clients.Under target a →
      s.clients.isExited a = false) :
    Outcome (fun _ => False) (fun t => ∃ rest,
      Exited good (s.clients.Under target) linkedSet rest s t)
      (exitClient env.wild depth target s) := by
  induction depth generalizing s linkedSet target client with
  | zero =>
      have known := Heap.lt_next used
      omega
  | succ depth ih =>
      have live : client.isDead = false := by
        simpa [Clients.isExited, Clients.shows, used] using
          alive target here .self
      have there : s.clients.deref target = .ok client := by
        simp [Clients.deref, used]
      unfold exitClient
      rw [there]
      refine Outcome.bind (Outcome.ok rfl : Outcome _ (client = ·) _) ?_
      rintro _ rfl
      split
      · rename_i service part
        simp [Client.isService, part] at plain
      · rename_i leaf part
        have server : client.isServer = true := by
          simp [Client.isServer, part]
        have each : ExitsTo good (exitClient env.wild depth) target
            s.clients.client.next := by
          intro r linkedSet c next lower here plain tree tabled alive used
          obtain ⟨client, used⟩ := Option.isSome_iff_exists.mp used
          have deep : r.clients.client.next < depth + c := by
            rw [next]
            exact Nat.lt_of_lt_of_le enough
              (by rw [Nat.add_assoc, Nat.add_comm 1]
                  exact Nat.add_le_add_left lower depth)
          exact ih deep here used (by simpa [Clients.isService, used] using
            plain) tree tabled alive
        refine Outcome.bind (exitServer_leaving each here tree tabled used
          server live alive) ?_
        rintro t ⟨middle, still, leaving⟩
        exact ⟨_, leaving.delClient used still⟩
      · rename_i person part
        have user : client.isUser = true := by
          simp [Client.isUser, part]
        refine Outcome.bind (exitUser_leaving tree tabled used user live) ?_
        intro t leaving
        exact ⟨_, leaving.delClient used here⟩

end State

end RatboxServices
