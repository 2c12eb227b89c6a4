import RatboxServices.Net.LinkStep

namespace RatboxServices

/-! A lost uplink is connected to again: while there is no connection, or a dead
one that is not freed yet, one connect event is pending and no service is marked
introduced. -/

variable {client : Client}

namespace Clients

def NoneIntroduced (s : Clients) : Prop :=
  ∀ a ∈ s.serviceList, s.isIntroduced a = false

namespace SameMarks

variable {observe : Client → Bool} {r s t : Clients} {target : ClientId}

theorem noneIntroduced (same : SameMarks Client.introduced s t)
    (none : s.NoneIntroduced) : t.NoneIntroduced := by
  intro a listed
  rw [isIntroduced_eq, same.shows]
  exact none a (same.serviceList ▸ listed)

theorem allDisabled (same : SameMarks Client.disabled s t) :
    t.serviceList.all t.isDisabled = s.serviceList.all s.isDisabled := by
  rw [same.serviceList]
  exact congrArg (s.serviceList.all ·) (funext same.shows)

end SameMarks

end Clients

namespace Client

theorem introduced_onServer (change : Server → Server) (client : Client) :
    (client.onServer change).introduced = client.introduced := by
  unfold onServer
  split
  · rename_i leaf at_
    simp [introduced, at_]
  · rfl

theorem NewServer.unmarked {uplink : Option ClientId}
    (new : NewServer uplink client) :
    client.introduced = false ∧ client.disabled = false := by
  obtain ⟨hops, at_⟩ := new.part
  simp [introduced, disabled, at_]

theorem NewUser.unmarked {uplinkP : ClientId} (new : NewUser uplinkP client) :
    client.introduced = false := by
  obtain ⟨user, at_⟩ := new.part
  simp [introduced, at_]

theorem introduced_of_core {old new : Client} (same : new.core = old.core) :
    new.introduced = old.introduced := by
  have parts : new.part.core = old.part.core := congrArg Core.part same
  unfold introduced
  cases before : old.part <;> cases after : new.part <;>
    simp_all [Part.core]

end Client

namespace State

variable {env : Env} {now : Int} {s t : State}

/-- A connect event is pending exactly while there is no live connection, and
then no service is marked introduced. -/
structure Scheduled (s : State) : Prop where
  events : s.connectEvents = if s.offline then 1 else 0
  idle : s.offline = true → s.clients.NoneIntroduced

namespace Scheduled

theorem of_same (scheduled : Scheduled s) (offline : t.offline = s.offline)
    (events : t.connectEvents = s.connectEvents)
    (marks : s.offline = true →
      Clients.SameMarks Client.introduced s.clients t.clients) :
    Scheduled t where
  events := by rw [events, offline, scheduled.events]
  idle := by
    rw [offline]
    intro off
    exact (marks off).noneIntroduced (scheduled.idle off)

theorem of_marks (scheduled : Scheduled s)
    (marks : Clients.SameMarks Client.introduced s.clients t.clients)
    (link : t.serverP = s.serverP)
    (events : t.connectEvents = s.connectEvents) : Scheduled t :=
  scheduled.of_same (by rw [offline, offline, link]) events fun _ => marks

end Scheduled

theorem Frame.sameMarks (frame : Frame s t) :
    Clients.SameMarks Client.introduced s.clients t.clients := by
  refine ⟨frame.serviceList, fun a => ?_⟩
  have kept := frame.cells a
  unfold Clients.shows
  cases before : s.clients.client.cell a with
  | none =>
      rw [before] at kept
      cases after : t.clients.client.cell a with
      | none => rfl
      | some client =>
          rw [after] at kept
          cases kept
  | some client =>
      obtain ⟨after, used, lasting⟩ := frame.lasting before
      rw [used]
      exact lasting.introduced

theorem exit_scheduled {target : ClientId} (scheduled : Scheduled s) :
    Ensures Scheduled (s.exit env target) :=
  Outcome.imp exit_frame fun _ frame =>
    scheduled.of_marks frame.sameMarks frame.serverP frame.connectEvents

/-- What the loop of `signoff_server` does to one service. -/
def signoffService (wild : Clients.Wild) (clients : Clients)
    (serviceP : ClientId) : Clients :=
  (clients.modify serviceP (·.clearStatus serviceIntroduced)).delClient wild
    serviceP

theorem introduced_clearStatus (client : Client) :
    (client.clearStatus serviceIntroduced).introduced = false := by
  unfold Client.clearStatus Client.onService
  split
  · simp [Client.introduced]
  · rename_i other
    unfold Client.introduced
    split
    · rename_i service at_
      exact absurd at_ (other service)
    · rfl

theorem signoffService_introduced {wild : Clients.Wild} {clients : Clients}
    {serviceP a : ClientId} :
    (signoffService wild clients serviceP).isIntroduced a =
      (clients.isIntroduced a && a != serviceP) := by
  unfold signoffService
  rw [Clients.isIntroduced_eq, (Clients.SameMarks.delClient wild).shows,
    Clients.isIntroduced_eq]
  unfold Clients.shows Clients.modify
  dsimp only
  rw [Heap.modify_cell]
  by_cases equal : a = serviceP
  · subst equal
    rw [if_pos rfl]
    cases clients.client.cell a with
    | none => rfl
    | some client => simp [introduced_clearStatus]
  · rw [if_neg equal]
    simp [equal]

theorem foldl_signoffService {wild : Clients.Wild} (services : List ClientId)
    (clients : Clients) :
    (services.foldl (signoffService wild) clients).serviceList =
        clients.serviceList ∧
      ∀ a, (services.foldl (signoffService wild) clients).isIntroduced a =
        (clients.isIntroduced a && decide (a ∉ services)) := by
  induction services generalizing clients with
  | nil => simp
  | cons serviceP rest ih =>
      obtain ⟨services, marks⟩ := ih (signoffService wild clients serviceP)
      refine ⟨?_, fun a => ?_⟩
      · rw [List.foldl_cons, services]
        exact (Clients.delClient_cells _ _ _).2
      · rw [List.foldl_cons, marks, signoffService_introduced]
        by_cases equal : a = serviceP
        · simp [equal]
        · have apart : (a != serviceP) = true := by simpa using equal
          simp [equal, apart]

theorem signoffServices_none {wild : Clients.Wild} (clients : Clients) :
    (clients.signoffServices wild).NoneIntroduced := by
  obtain ⟨services, marks⟩ : _ ∧ ∀ a, (clients.signoffServices
      wild).isIntroduced a = _ :=
    foldl_signoffService clients.serviceList clients
  intro a listed
  have listed : a ∈ clients.serviceList := services ▸ listed
  exact (marks a).trans (by simp [listed])

theorem signoffServer_scheduled (scheduled : Scheduled s) :
    Ensures Scheduled (s.signoffServer env) := by
  unfold signoffServer
  refine Ensures.bind fun conn link => ?_
  have here := uplink_eq_ok link
  split
  · exact scheduled
  · rename_i live
    have none := scheduled.events
    have given : Scheduled (s.signoffState env) := by
      have off : (s.signoffState env).offline = true := by
        simp [offline, signoffState, here, Lconn.dead_giveUp]
      refine ⟨?_, fun _ => signoffServices_none s.clients⟩
      rw [if_pos off]
      simpa [signoffState, offline, here, live] using none
    split
    · exact given
    · exact exit_scheduled given

def allDisabled (s : State) : Bool :=
  s.clients.serviceList.all s.clients.isDisabled

/-- On a dead connection no uplink is accepted that a service would be
introduced to, and no killed service is introduced again. -/
def KeepsIdle (r : State) : Hazard → Prop
  | .accept => r.offline = true → r.allDisabled = true
  | .revive => r.offline = false
  | _ => True

theorem offline_step {old new : Lconn} (step : Lconn.Step old new)
    (dead : old.dead = true) : new.dead = true := by
  cases step with
  | tame tame => rw [tame.dead, dead]
  | givenUp live => exact Lconn.dead_giveUp old
  | accepted now target noUplink sid =>
      have introduced : (old.introduce now target).dead = true := by
        show (old.clearFlag connHandshake).dead = true
        rw [Lconn.dead_clearFlag (by decide), dead]
      exact Lconn.dead_setFlag introduced
  | failed => simp [Lconn.dead, Lconn.setFlag, connDead]
  | pinged =>
      exact Lconn.dead_setFlag dead
  | answered =>
      rw [Lconn.dead_clearFlag (by decide), dead]
  | noted now => exact dead
  | signedOn writeFails live =>
      rw [live] at dead
      cases dead

theorem Stays.offline (stays : Stays s t) (off : s.offline = true) :
    t.offline = true := by
  unfold State.offline
  cases link : t.serverP with
  | none => rfl
  | some conn =>
      obtain ⟨before, there, steps⟩ := stays conn link
      have dead : before.dead = true := by
        simpa [State.offline, there] using off
      have always : ∀ old new, Lconn.Steps old new → old.dead = true →
          new.dead = true := by
        intro old new steps start
        induction steps with
        | refl => exact start
        | tail _ step ih => exact offline_step step ih
      exact always before conn steps dead

theorem renameClient_marks {target : ClientId} {name : CString} :
    Clients.SameMarks Client.introduced s.clients
      (s.renameClient env.wild target name).clients := by
  show Clients.SameMarks _ _ (Clients.addClient target (Clients.modify target
    (fun client => { client with name := name })
    (s.clients.delClient env.wild target)))
  refine Clients.SameMarks.trans ?_ .addClient
  refine Clients.SameMarks.trans ?_ (.modify fun _ => rfl)
  exact .delClient env.wild

theorem introduceServices_marks {clients : Clients}
    (disabled : clients.serviceList.all clients.isDisabled = true) :
    clients.introduceServices = clients := by
  have skipped : ∀ services : List ClientId,
      services.all clients.isDisabled = true →
      services.foldl (fun s serviceP =>
        if s.isDisabled serviceP then s else s.introduceService serviceP)
          clients = clients := by
    intro services all
    induction services with
    | nil => rfl
    | cons serviceP rest ih =>
        rw [List.all_cons, Bool.and_eq_true] at all
        rw [List.foldl_cons, if_pos all.1]
        exact ih all.2
  exact skipped clients.serviceList disabled

theorem allocClient_marks {observe : Client → Bool}
    (mere : observe client = false) :
    Clients.SameMarks observe s.clients (s.allocClient client).clients :=
  .alloc mere

theorem addUser_marks {observe : Client → Bool} {user : Client}
    (mere : observe user = false) :
    Clients.SameMarks observe s.clients (s.addUser user).clients :=
  ((allocClient_marks mere).trans .addClient).trans (.of_cells rfl rfl)

theorem linkServer_marks {observe : Client → Bool} {target : ClientId} :
    Clients.SameMarks observe s.clients (s.linkServer target).clients :=
  Clients.SameMarks.addClient.trans (Clients.SameMarks.of_cells rfl rfl)

theorem acceptUplink_offline {conn : Lconn} (link : s.serverP = some conn) :
    (s.acceptUplink now client).offline = conn.dead := by
  have there : (s.acceptUplink now client).serverP =
      some ((conn.introduce now s.clients.client.next).setFlag
        connFlagsSentburst) := by
    show (s.serverP.map _).map _ = _
    rw [link]
    rfl
  simp [offline, there, Lconn.dead, Lconn.introduce, Lconn.setFlag,
    Lconn.clearFlag, connHandshake, connDead, connFlagsSentburst]

theorem acceptUplink_marks (new : Client.NewServer none client)
    (disabled : s.allDisabled = true) :
    Clients.SameMarks Client.introduced s.clients
      (s.acceptUplink now client).clients := by
  have linked {observe : Client → Bool} (mere : observe client = false) :
      Clients.SameMarks observe s.clients ((s.allocClient client).linkServer
        s.clients.client.next).clients :=
    (allocClient_marks mere).trans linkServer_marks
  show Clients.SameMarks _ _ (Clients.introduceServices
    ((s.allocClient client).linkServer s.clients.client.next).clients)
  rw [introduceServices_marks]
  · exact linked new.unmarked.1
  · rw [(linked new.unmarked.2).allDisabled]
    exact disabled

theorem Effect.scheduled (effect : Effect env KeepsIdle Chan s t)
    (scheduled : Scheduled s) : Scheduled t := by
  cases effect with
  | chans moved kept => exact scheduled.of_marks (.refl _) rfl rfl
  | strand allowed moved kept => exact scheduled.of_marks (.refl _) rfl rfl
  | client benign =>
      exact scheduled.of_marks (.modify fun client =>
        Client.introduced_of_core (benign client)) rfl rfl
  | counters firstKill numKill => exact scheduled.of_marks (.refl _) rfl rfl
  | exit found exited => exact (exit_scheduled scheduled).of_ok exited
  | exitUplink allowed link uplink exited =>
      exact (exit_scheduled scheduled).of_ok exited
  | linkUser new linked =>
      obtain ⟨leaf, _, rfl⟩ := linkUser_eq_ok linked
      refine scheduled.of_marks ?_ rfl rfl
      exact (addUser_marks new.unmarked).trans
        (.modify (Client.introduced_onServer _))
  | linkLeaf found new linked =>
      obtain ⟨leaf, _, rfl⟩ := linkLeaf_eq_ok linked
      refine scheduled.of_marks ?_ rfl rfl
      refine Clients.SameMarks.trans ?_ linkServer_marks
      exact (allocClient_marks new.unmarked.1).trans
        (.modify (Client.introduced_onServer _))
  | rename name found user =>
      exact scheduled.of_marks renameClient_marks rfl rfl
  | revive before allowed found service =>
      have live : s.offline = false := before.offline.trans allowed
      refine scheduled.of_same rfl rfl fun off => ?_
      rw [live] at off
      cases off
  | link tame =>
      exact scheduled.of_same (Relinked.onLink tame).offline rfl
        fun _ => .refl _
  | signoff before allowed signed =>
      exact (signoffServer_scheduled scheduled).of_ok signed
  | accept allowed link noUplink sid new =>
      refine scheduled.of_same ?_ rfl fun off =>
        acceptUplink_marks new (allowed off)
      rw [acceptUplink_offline link]
      simp [offline, link]

/-- What keeps a lost uplink from being connected to again: a write that fails
on a live link, and on a dead one a line that introduces services. -/
def KeepsPendingLine (env : Env) (s : State) (line : Incoming) : Prop :=
  (∀ hazard, lineHazard env s line.text = some hazard →
    KeepsIdle s hazard) ∧
  (line.writeFails = true → s.offline = true)

/-- The same for all events: nor may the connect event fire or an enabled
service be configured before a dead connection is freed. -/
def KeepsPending (env : Env) (s : State) : Event → Prop
  | .read now fragment finish lines =>
      MeetsLines env (KeepsPendingLine env) s
        (.read now fragment finish lines)
  | .connect _ _ => s.serverP.isSome = true → s.offline = false
  | .connected writeFails => s.isAwaiting = true → writeFails = false
  | .writeError => s.offline = true
  | .rehash settings _ =>
      s.offline = true → s.sentBurst = true →
        (settings.foldl (confSetService env) s).allDisabled = true
  | _ => True

theorem readTurn_scheduled {line : Incoming}
    (keeps : KeepsPendingLine env s line) (scheduled : Scheduled s) :
    Ensures Scheduled (readTurn env now s line) := by
  have effects : Ensures (Effects env KeepsIdle (fun _ _ => True) s)
      (readLine env now s line.text) := readLine_effects_true keeps.1
  unfold readTurn
  refine Outcome.bind effects fun t effects => ?_
  have kept : Scheduled t :=
    effects.preserves (fun _ _ effect => effect.scheduled) scheduled
  show Scheduled (if line.writeFails then t.writeError else t)
  split
  · rename_i fails
    have off : t.offline = true := effects.stays.offline (keeps.2 fails)
    have still : t.writeError.offline = true := writeError_stays.offline off
    exact kept.of_same (by rw [still, off]) rfl fun _ => .refl _
  · exact kept

theorem onLink_scheduled {change : Lconn → Lconn}
    (dead : ∀ conn, (change conn).dead = conn.dead)
    (scheduled : Scheduled s) : Scheduled (s.onLink change) := by
  refine scheduled.of_same ?_ rfl fun _ => .refl _
  unfold offline onLink
  cases s.serverP with
  | none => rfl
  | some conn => exact dead conn

theorem noteData_scheduled (scheduled : Scheduled s) (received : Bool) :
    Scheduled (s.noteData now received) := by
  unfold noteData
  split
  · exact onLink_scheduled (fun _ => rfl) scheduled
  · exact scheduled

theorem readAny_scheduled {received : Bool} {finish : ReadEnd}
    (scheduled : Scheduled s) :
    Ensures Scheduled (s.readAny env now received finish) := by
  unfold readAny
  dsimp only
  split
  · exact noteData_scheduled scheduled received
  · exact signoffServer_scheduled (noteData_scheduled scheduled received)
  · exact signoffServer_scheduled (noteData_scheduled scheduled received)

theorem readServer_scheduled {fragment : Bool} {finish : ReadEnd}
    {lines : List Incoming} (reading : s.isReading = true)
    (keeps : MeetsLines env (KeepsPendingLine env) s
      (.read now fragment finish lines)) (scheduled : Scheduled s) :
    Ensures Scheduled (s.readServer env now (fragment || !lines.isEmpty)
      finish lines) := by
  refine Ensures.intro fun t read => ?_
  obtain ⟨after, first, ended⟩ := readServer_eq_ok read
  have begun : Scheduled after := (readAny_scheduled scheduled).of_ok first
  obtain rfl | ran := ended
  · exact begun
  · refine run_preserves_of_meets Scheduled
      (fun _ _ _ keeps before turned =>
        (readTurn_scheduled keeps before).of_ok turned)
      (keeps reading after first) ?_ ran
    exact onLink_scheduled (fun conn => Lconn.dead_clearFlag (by decide))
      begun

theorem dropServer_scheduled {conn : Lconn} (off : s.offline = true)
    (scheduled : Scheduled s) :
    Ensures Scheduled (s.dropServer env conn) := by
  have exited : Ensures (fun t => Scheduled t ∧ t.offline = true)
      (s.exitUplink env conn) := by
    unfold State.exitUplink
    split
    · exact ⟨scheduled, off⟩
    · split
      · exact ⟨scheduled, off⟩
      · refine Ensures.intro fun t exited => ?_
        exact ⟨(exit_scheduled scheduled).of_ok exited,
          (exit_stays.of_ok exited).offline off⟩
  unfold dropServer
  refine Outcome.bind exited fun t both => ?_
  obtain ⟨scheduled, off⟩ := both
  exact scheduled.of_same (by rw [off]; rfl) rfl fun _ => .refl _

theorem checkServerStatus_scheduled (scheduled : Scheduled s) :
    Ensures Scheduled (s.checkServerStatus env now) := by
  have signed : Ensures Scheduled (s.signoffServer env) :=
    signoffServer_scheduled scheduled
  unfold checkServerStatus
  split
  · exact scheduled
  · rename_i conn link
    split
    · rename_i dead
      exact dropServer_scheduled (by simpa [offline, link] using dead)
        scheduled
    · split
      · exact signed
      · split
        · exact signed
        · split
          · exact signed
          · split
            · exact signed
            · split
              · refine onLink_scheduled (fun conn => ?_) scheduled
                simp [Lconn.dead, Lconn.setFlag, connSentping, connDead]
              · exact scheduled

theorem introduced_onService {change : Service → Service}
    (kept : ∀ ours, (change ours).status.has serviceIntroduced =
      ours.status.has serviceIntroduced) (client : Client) :
    (client.onService change).introduced = client.introduced := by
  unfold Client.onService
  split
  · rename_i ours at_
    simp [Client.introduced, at_, kept]
  · rfl

theorem introduced_setReintroduce (client : Client) :
    (client.setStatus serviceReintroduce).introduced = client.introduced :=
  introduced_onService (fun ours => by
    simp [serviceReintroduce, serviceIntroduced]) client

theorem introduced_clearReintroduce (client : Client) :
    (client.clearStatus serviceReintroduce).introduced =
      client.introduced :=
  introduced_onService (fun ours => by
    simp [serviceReintroduce, serviceIntroduced]) client

theorem disabled_clearReintroduce (client : Client) :
    (client.clearStatus serviceReintroduce).disabled = client.disabled := by
  unfold Client.clearStatus Client.onService
  split
  · rename_i ours at_
    simp [Client.disabled, at_]
  · rfl

theorem markReintroduce_marks {serviceP : ClientId} :
    Clients.SameMarks Client.introduced s.clients
      (s.markReintroduce serviceP).clients := by
  unfold markReintroduce
  split
  · exact .modify introduced_setReintroduce
  · exact .refl _

theorem confSetServiceNick_marks {serviceP : ClientId} {data : CString} :
    Clients.SameMarks Client.introduced s.clients
      (s.confSetServiceNick env serviceP client data).clients := by
  unfold confSetServiceNick
  dsimp only
  split
  · exact .refl _
  · split
    · refine Clients.SameMarks.trans ?_ (.modify introduced_setReintroduce)
      exact renameClient_marks
    · exact .modify fun _ => rfl

theorem confSetService_marks (setting : ClientId × ServiceSetting) :
    Clients.SameMarks Client.introduced s.clients
      (s.confSetService env setting).clients := by
  have changed (serviceP : ClientId) {change : Service → Service}
      (kept : ∀ ours, (change ours).status = ours.status) :
      Clients.SameMarks Client.introduced s.clients
        (s.modifyClient serviceP (·.onService change)).clients :=
    .modify (introduced_onService fun ours => by rw [kept])
  unfold confSetService
  split
  · exact .refl _
  · split
    · exact confSetServiceNick_marks
    · split
      · exact .refl _
      · refine Clients.SameMarks.trans ?_ markReintroduce_marks
        exact changed _ fun _ => rfl
    · split
      · exact .refl _
      · refine Clients.SameMarks.trans ?_ markReintroduce_marks
        exact changed _ fun _ => rfl
    · split
      · exact .refl _
      · refine Clients.SameMarks.trans ?_ markReintroduce_marks
        exact .modify fun _ => rfl
    · exact changed _ fun _ => rfl
    · exact changed _ fun _ => rfl
    · exact .refl _

theorem confSetServices_marks (settings : List (ClientId × ServiceSetting)) :
    Clients.SameMarks Client.introduced s.clients
      (settings.foldl (confSetService env) s).clients := by
  induction settings generalizing s with
  | nil => exact .refl _
  | cons setting rest ih => exact (confSetService_marks setting).trans ih

theorem reloadServices_marks {wild : Clients.Wild} (services : List ClientId)
    {clients : Clients}
    (marks : ∀ a ∈ services, clients.isIntroduced a = false ∧
      clients.isDisabled a = true) :
    Clients.SameMarks Client.introduced clients
      (services.foldl (Clients.reloadService wild) clients) := by
  induction services generalizing clients with
  | nil => exact .refl _
  | cons serviceP rest ih =>
      obtain ⟨out, off⟩ := marks serviceP (by simp)
      have one : clients.reloadService wild serviceP =
          clients.modify serviceP (·.clearStatus serviceReintroduce) := by
        simp [Clients.reloadService, out, off]
      have introduced : Clients.SameMarks Client.introduced clients
          (clients.reloadService wild serviceP) := by
        rw [one]
        exact .modify introduced_clearReintroduce
      have disabled : Clients.SameMarks Client.disabled clients
          (clients.reloadService wild serviceP) := by
        rw [one]
        exact .modify disabled_clearReintroduce
      rw [List.foldl_cons]
      refine introduced.trans (ih fun a later => ?_)
      obtain ⟨out, off⟩ := marks a (List.mem_cons_of_mem _ later)
      exact ⟨(introduced.shows a).trans out, (disabled.shows a).trans off⟩

theorem rehash_marks {settings : List (ClientId × ServiceSetting)}
    {pingTime : Int} (none : s.clients.NoneIntroduced)
    (disabled : s.sentBurst = true →
      (settings.foldl (confSetService env) s).allDisabled = true) :
    Clients.SameMarks Client.introduced s.clients
      (s.rehash env settings pingTime).clients := by
  have set : Clients.SameMarks Client.introduced s.clients
      (settings.foldl (confSetService env) s).clients :=
    confSetServices_marks settings
  have burst := congrArg State.sentBurst (confSetServices_eq env settings s)
  unfold rehash reloadServices
  dsimp only
  split
  · rename_i sent
    have off := disabled (burst.symm.trans sent)
    refine set.trans (reloadServices_marks _ fun a listed => ⟨?_, ?_⟩)
    · exact set.noneIntroduced none a listed
    · exact List.all_eq_true.mp off a listed
  · exact set

theorem rehash_scheduled {settings : List (ClientId × ServiceSetting)}
    {pingTime : Int} (scheduled : Scheduled s)
    (disabled : s.offline = true → s.sentBurst = true →
      (settings.foldl (confSetService env) s).allDisabled = true) :
    Scheduled (s.rehash env settings pingTime) := by
  have whole := rehash_eq env settings pingTime s
  have link := congrArg State.offline whole
  have events := congrArg State.connectEvents whole
  exact scheduled.of_same link events fun off =>
    rehash_marks (scheduled.idle off) (disabled off)

theorem dead_signOn (conn : Lconn) :
    (conn.signOn false).dead = conn.dead := by
  simp [Lconn.signOn, Lconn.dead, Lconn.setFlag, Lconn.clearFlag,
    connHandshake, connConnecting, connDead]

theorem connectToServer_scheduled {conf : Option (CString × CString)}
    (pending : s.connectEvents ≠ 0)
    (freed : s.serverP.isSome = true → s.offline = false)
    (scheduled : Scheduled s) :
    Ensures Scheduled (s.connectToServer now conf) := by
  have events := scheduled.events
  unfold connectToServer
  dsimp only
  split
  · rename_i conn link
    rw [freed (by rw [link]; rfl)] at events
    exact absurd events pending
  · rename_i absent
    have off : s.offline = true := by simp [offline, absent]
    split
    · exact trivial
    · rename_i name pass
      rw [if_pos off] at events
      have live : (Lconn.fresh name pass now).dead = false := by
        show (Word.ofBits [connConnecting]).has connDead = false
        decide
      refine ⟨?_, fun dead => ?_⟩
      · simp [offline, live, events]
      · simp [offline, live] at dead

theorem step_scheduled {event : Event} (keeps : KeepsPending env s event)
    (scheduled : Scheduled s) : Ensures Scheduled (s.step env event) := by
  cases event with
  | read now fragment finish lines =>
      unfold step
      dsimp only
      split
      · rename_i reading
        exact readServer_scheduled reading keeps scheduled
      · exact scheduled
  | tick now => exact checkServerStatus_scheduled scheduled
  | connect now conf =>
      unfold step
      dsimp only
      split
      · exact scheduled
      · rename_i pending
        exact connectToServer_scheduled pending keeps scheduled
  | connected writeFails =>
      show Scheduled (if s.isAwaiting then s.signonServer writeFails else s)
      split
      · rename_i awaiting
        rw [keeps awaiting]
        exact onLink_scheduled dead_signOn scheduled
      · exact scheduled
  | connectFailed timeout =>
      unfold step
      dsimp only
      split
      · exact signoffServer_scheduled scheduled
      · exact scheduled
  | writeError =>
      have off : s.offline = true := keeps
      have still : s.writeError.offline = true := writeError_stays.offline off
      exact scheduled.of_same (by rw [still, off]) rfl fun _ => .refl _
  | reroute =>
      unfold step uConnect
      dsimp only
      split
      · exact scheduled
      · split
        · exact scheduled
        · exact signoffServer_scheduled scheduled
  | boot name =>
      have effects : Effects env KeepsIdle (fun _ _ => True) s (s.uBoot name) :=
        uBoot_effects name s
      exact effects.preserves (fun _ _ effect => effect.scheduled) scheduled
  | rehash settings pingTime => exact rehash_scheduled scheduled keeps
  | service now act =>
      have effects : Ensures (Effects env KeepsIdle (fun _ _ => True) s)
          (execService env now s act) := execService_effects_true act
      exact Outcome.imp effects fun _ effects =>
        effects.preserves (fun _ _ effect => effect.scheduled) scheduled

theorem addServices_introduced (blocks : List ServiceBlock)
    {clients : Clients} {a : ClientId}
    (before : clients.isIntroduced a = false) :
    (blocks.foldl Clients.addService clients).isIntroduced a = false := by
  induction blocks generalizing clients with
  | nil => exact before
  | cons block rest ih =>
      have same : Clients.SameMarks Client.introduced clients
          { clients with client := clients.client.alloc block.client } :=
        .alloc (by simp [Client.introduced, ServiceBlock.client])
      exact ih ((same.shows a).trans before)

theorem start_scheduled (blocks : List ServiceBlock) (pingTime : Int) :
    Scheduled (start blocks pingTime) :=
  ⟨rfl, fun _ _ _ => addServices_introduced blocks rfl⟩

/-- In every run that keeps the connect event pending, a daemon without a
connection waits for it, and none of its services is marked introduced. -/
theorem connectPending_of_run (env : Env) (blocks : List ServiceBlock)
    (pingTime : Int) (events : List Event) (s : State)
    (keeps : Meets (step env) (KeepsPending env) (start blocks pingTime)
      events)
    (reached : run (step env) (start blocks pingTime) events = .ok s)
    (lost : s.serverP = none) :
    0 < s.connectEvents ∧ s.clients.NoneIntroduced := by
  have scheduled : Scheduled s :=
    run_preserves_of_meets Scheduled
      (fun _ _ _ keeps before stepped =>
        (step_scheduled keeps before).of_ok stepped)
      keeps (start_scheduled blocks pingTime) reached
  have off : s.offline = true := by simp [offline, lost]
  have events := scheduled.events
  rw [if_pos off] at events
  exact ⟨by omega, scheduled.idle off⟩

instance (r : State) (hazard : Hazard) : Decidable (KeepsIdle r hazard) :=
  match hazard with
  | .accept => inferInstanceAs (Decidable (_ → _))
  | .revive => inferInstanceAs (Decidable (_ = _))
  | .strand => isTrue trivial
  | .signoff => isTrue trivial
  | .exitUplink => isTrue trivial

instance (env : Env) (s : State) (line : Incoming) :
    Decidable (KeepsPendingLine env s line) :=
  have : Decidable (∀ hazard, lineHazard env s line.text = some hazard →
      KeepsIdle s hazard) :=
    match found : lineHazard env s line.text with
    | none => isTrue (by simp)
    | some hazard =>
        decidable_of_iff (KeepsIdle s hazard) (by simp)
  inferInstanceAs (Decidable (_ ∧ _))

instance (env : Env) (s : State) (event : Event) :
    Decidable (KeepsPending env s event) :=
  match event with
  | .read now fragment finish lines =>
      inferInstanceAs (Decidable (MeetsLines env (KeepsPendingLine env) s
        (.read now fragment finish lines)))
  | .connect _ _ => inferInstanceAs (Decidable (_ → _))
  | .connected _ => inferInstanceAs (Decidable (_ → _))
  | .writeError => inferInstanceAs (Decidable (_ = _))
  | .rehash _ _ => inferInstanceAs (Decidable (_ → _ → _))
  | .tick _ => isTrue trivial
  | .connectFailed _ => isTrue trivial
  | .reroute => isTrue trivial
  | .boot _ => isTrue trivial
  | .service _ _ => isTrue trivial

def endOfLink : List Event :=
  linkUp [] ++ [.read 9 false .eof [], .tick 10]

def oneService : List ServiceBlock :=
  [{ name := "operserv".toList }]

theorem connectPending_endOfLink :
    ∃ s, run (step .quiet) (start oneService 300) endOfLink = .ok s ∧
      s.serverP = none ∧ 0 < s.connectEvents ∧ s.clients.NoneIntroduced := by
  have keeps : Meets (step .quiet) (KeepsPending .quiet)
      (start oneService 300) endOfLink := by
    decide +kernel
  have observed : (run (step .quiet) (start oneService 300)
      endOfLink).toOption.map (·.serverP) = some none := by
    decide +kernel
  obtain ⟨s, reached, lost⟩ := Except.exists_of_observed observed
  exact ⟨s, reached, lost,
    connectPending_of_run .quiet oneService 300 _ s keeps reached lost⟩

/-- A write that fails, and the next tick frees the connection. -/
theorem not_connectPending_failedWrite :
    ∃ s, run (step .quiet) (start oneService 300)
        (linkUp [] ++ [.writeError, .tick 10]) = .ok s ∧
      s.serverP = none ∧ s.connectEvents = 0 ∧
        ¬ s.clients.NoneIntroduced := by
  have observed : (run (step .quiet) (start oneService 300)
      (linkUp [] ++ [.writeError, .tick 10])).toOption.map (fun s =>
        (s.serverP, s.connectEvents, s.clients.serviceList,
          s.clients.isIntroduced 0)) = some (none, 0, [0], true) := by
    decide +kernel
  obtain ⟨s, reached, seen⟩ := Except.exists_of_observed observed
  simp only [Prod.mk.injEq] at seen
  obtain ⟨lost, events, services, marked⟩ := seen
  refine ⟨s, reached, lost, events, fun none => ?_⟩
  have unmarked := none 0 (by simp [services])
  rw [marked] at unmarked
  cases unmarked

end State

end RatboxServices
