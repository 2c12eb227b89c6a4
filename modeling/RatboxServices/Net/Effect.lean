import Mathlib.Logic.Relation
import RatboxServices.Lib.Outcome
import RatboxServices.Net.Hazard
import RatboxServices.Net.ModeInv

namespace RatboxServices

/-! Everything a line from the uplink can do, as a sequence of few kinds of
effects on the state. The invariants of the daemon are shown once for each
kind. -/

namespace Part

def core : Part → Part
  | .server leaf => .server { leaf with hops := 0 }
  | .user _ => .user {}
  | .service ours => .service { status := ours.status, flags := ours.flags }

end Part

namespace Client

structure Core where
  name : CString
  uid : CString
  isDead : Bool
  uplink : Option ClientId
  part : Part

def core (client : Client) : Core where
  name := client.name
  uid := client.uid
  isDead := client.isDead
  uplink := client.uplink
  part := client.part.core

def Benign (change : Client → Client) : Prop :=
  ∀ client, (change client).core = client.core

theorem benign_onUser (change : User → User) :
    Benign (Client.onUser change) := by
  intro client
  unfold onUser
  split
  · rename_i user at_
    simp [core, isDead, at_, Part.core]
  · rfl

theorem benign_setFlag {bit : Nat} (other : bit ≠ flagsDead) :
    Benign (Client.setFlag bit) := by
  intro client
  simp [core, setFlag, isDead, other]

theorem benign_flood (change : Service → Service)
    (kept : ∀ service, (change service).status = service.status ∧
      (change service).flags = service.flags) :
    Benign (Client.onService change) := by
  intro client
  unfold onService
  split
  · rename_i service at_
    obtain ⟨sameStatus, sameFlags⟩ := kept service
    simp [core, isDead, at_, Part.core, sameStatus, sameFlags]
  · rfl

/-- A user as `NICK` and `UID` introduce it. -/
structure NewUser (uplinkP : ClientId) (client : Client) : Prop where
  part : ∃ user, client.part = .user user
  uplink : client.uplink = some uplinkP
  alive : client.isDead = false

/-- A server as `SERVER` and `SID` introduce it. -/
structure NewServer (uplink : Option ClientId) (client : Client) : Prop where
  part : ∃ hops, client.part = .server { hops := hops }
  uplink : client.uplink = uplink
  alive : client.isDead = false

end Client

namespace Lconn

structure Tame (old new : Lconn) : Prop where
  clientP : new.clientP = old.clientP
  dead : new.dead = old.dead
  signedOff : new.signedOff = old.signedOff
  reading : new.reading = old.reading
  connecting : new.flags.has connConnecting = old.flags.has connConnecting
  sentping : new.flags.has connSentping = old.flags.has connSentping
  lastTime : new.lastTime = old.lastTime
  opened : new.opened = old.opened
  lastData : new.lastData = old.lastData
  passed : old.passed = true → new.passed = true
  sid : new.sid = old.sid ∨ new.passed = true

namespace Tame

theorem trans {old middle new : Lconn} (first : Tame old middle)
    (second : Tame middle new) : Tame old new where
  clientP := second.clientP.trans first.clientP
  dead := second.dead.trans first.dead
  signedOff := second.signedOff.trans first.signedOff
  reading := second.reading.trans first.reading
  connecting := second.connecting.trans first.connecting
  sentping := second.sentping.trans first.sentping
  lastTime := second.lastTime.trans first.lastTime
  opened := second.opened.trans first.opened
  lastData := second.lastData.trans first.lastData
  passed := fun before => second.passed (first.passed before)
  sid := by
    obtain same | passed := second.sid
    · obtain older | passed := first.sid
      · exact Or.inl (same.trans older)
      · exact Or.inr (second.passed passed)
    · exact Or.inr passed

theorem refl (conn : Lconn) : Tame conn conn :=
  ⟨rfl, rfl, rfl, rfl, rfl, rfl, rfl, rfl, rfl, id, Or.inl rfl⟩

end Tame

end Lconn

namespace Clients

def Finds (s : Clients) (name : CString) (target : ClientId) : Prop :=
  s.findClient name = some target ∨ s.findNamedClient name = some target

end Clients

namespace State

open Chans (Inv)

def renameClient (wild : Clients.Wild) (target : ClientId)
    (name : CString) (s : State) : State :=
  ((s.onClients (Clients.delClient wild target)).modifyClient target
    fun client => { client with name := name }).onClients
      (Clients.addClient target)

def reviveService (wild : Clients.Wild) (target : ClientId) (s : State) :
    State :=
  (s.onClients (Clients.delClient wild target)).onClients
    (Clients.introduceService target)

structure Relinked (r s : State) : Prop where
  clients : s.clients = r.clients
  chans : s.chans = r.chans
  serverP : Option.Rel Lconn.Tame r.serverP s.serverP

theorem Relinked.refl (s : State) : Relinked s s := by
  refine ⟨rfl, rfl, ?_⟩
  cases s.serverP with
  | none => exact .none
  | some conn => exact .some (.refl conn)

theorem Relinked.onLink {s : State} {change : Lconn → Lconn}
    (tame : ∀ conn, Lconn.Tame conn (change conn)) :
    Relinked s (s.onLink change) := by
  refine ⟨rfl, rfl, ?_⟩
  show Option.Rel _ s.serverP (s.serverP.map change)
  cases s.serverP with
  | none => exact .none
  | some conn => exact .some (tame conn)

/-- One effect of a handler. The hazards are those of `Allowed`, which looks at
the state before the line. Whatever a handler does to the channels by itself is
in `Chan`. -/
inductive Effect (env : Env) (Allowed : State → Hazard → Prop)
    (Chan : Chans → Chans → Prop) : State → State → Prop where
  | chans {s : State} {chans : Chans} (moved : Chan s.chans chans)
      (kept : ∀ Empty, Inv Empty s.chans → Inv Empty chans) :
      Effect env Allowed Chan s { s with chans := chans }
  | strand {s : State} {chans : Chans} (allowed : Allowed s .strand)
      (moved : Chan s.chans chans)
      (kept : Inv (fun _ => True) s.chans → Inv (fun _ => True) chans) :
      Effect env Allowed Chan s { s with chans := chans }
  | client {s : State} {target : ClientId} {change : Client → Client}
      (benign : Client.Benign change) :
      Effect env Allowed Chan s (s.modifyClient target change)
  | counters {s : State} (firstKill numKill : Int) :
      Effect env Allowed Chan s { s with firstKill := firstKill, numKill := numKill }
  | exit {s t : State} {name : CString} {target : ClientId}
      (found : s.clients.Finds name target)
      (exited : s.exit env target = .ok t) : Effect env Allowed Chan s t
  | exitUplink {s t : State} {conn : Lconn} {target : ClientId}
      (allowed : Allowed s .exitUplink) (link : s.serverP = some conn)
      (uplink : conn.clientP = some target)
      (exited : s.exit env target = .ok t) : Effect env Allowed Chan s t
  | linkUser {s t : State} {uplinkP : ClientId} {user : Client}
      (new : Client.NewUser uplinkP user)
      (linked : s.linkUser uplinkP user = .ok t) : Effect env Allowed Chan s t
  | linkLeaf {s t : State} {source : CString} {clientP : ClientId}
      {server : Client} (found : s.clients.Finds source clientP)
      (new : Client.NewServer (some clientP) server)
      (linked : s.linkLeaf clientP server = .ok t) : Effect env Allowed Chan s t
  | rename {s : State} {source : CString} {clientP : ClientId}
      (name : CString) (found : s.clients.Finds source clientP)
      (user : s.clients.isUser clientP = true) :
      Effect env Allowed Chan s (s.renameClient env.wild clientP name)
  | revive {r s : State} {name : CString} {target : ClientId}
      (before : Relinked r s) (allowed : Allowed r .revive)
      (found : s.clients.Finds name target)
      (service : s.clients.isService target = true) :
      Effect env Allowed Chan s (s.reviveService env.wild target)
  | link {s : State} {change : Lconn → Lconn}
      (tame : ∀ conn, Lconn.Tame conn (change conn)) :
      Effect env Allowed Chan s (s.onLink change)
  | signoff {r s t : State} (before : Relinked r s)
      (allowed : Allowed r .signoff) (signed : s.signoffServer env = .ok t) :
      Effect env Allowed Chan s t
  | accept {s : State} {conn : Lconn} {now : Int} {client : Client}
      (allowed : Allowed s .accept) (link : s.serverP = some conn)
      (noUplink : conn.clientP = none) (sid : conn.sid.isSome = true)
      (new : Client.NewServer none client) :
      Effect env Allowed Chan s (s.acceptUplink now client)

abbrev Effects (env : Env) (Allowed : State → Hazard → Prop)
    (Chan : Chans → Chans → Prop) : State → State → Prop :=
  Relation.ReflTransGen (Effect env Allowed Chan)

namespace Effects

variable {env : Env} {Allowed : State → Hazard → Prop}
  {Chan : Chans → Chans → Prop} {s t : State}

theorem one (effect : Effect env Allowed Chan s t) :
    Effects env Allowed Chan s t :=
  Relation.ReflTransGen.single effect

theorem refl : Effects env Allowed Chan s s :=
  Relation.ReflTransGen.refl

theorem onChans {change : Chans → Chans}
    (moved : Chan s.chans (change s.chans))
    (kept : ∀ {Empty}, Inv Empty s.chans → Inv Empty (change s.chans)) :
    Effects env Allowed Chan s (s.onChans change) :=
  one (.chans moved fun _ => kept)

theorem modifyUser (target : ClientId) (change : User → User) :
    Effects env Allowed Chan s (s.modifyClient target (·.onUser change)) :=
  one (.client (Client.benign_onUser change))

theorem setFlag (target : ClientId) {bit : Nat}
    (other : bit ≠ flagsDead) :
    Effects env Allowed Chan s (s.modifyClient target (·.setFlag bit)) :=
  one (.client (Client.benign_setFlag other))

theorem preserves {P : State → Prop}
    (kept : ∀ s t, Effect env Allowed Chan s t → P s → P t)
    (effects : Effects env Allowed Chan s t) (start : P s) : P t := by
  induction effects with
  | refl => exact start
  | tail _ effect ih => exact kept _ _ effect ih

theorem relates {R : State → State → Prop} (same : ∀ s, R s s)
    (step : ∀ r s t, R r s → Effect env Allowed Chan s t → R r t)
    (effects : Effects env Allowed Chan s t) : R s t := by
  induction effects with
  | refl => exact same s
  | tail _ effect ih => exact step _ _ _ ih effect

end Effects

/-- A change of a channel that leaves its members, services, TS and simple
modes alone. -/
structure Dressing (change : Channel → Channel) : Prop where
  plain : Inv.Plain change
  tsinfo : ∀ ch, (change ch).tsinfo = ch.tsinfo
  mode : ∀ ch, (change ch).mode = ch.mode

/-- What an act of a service does to the channels by itself is in `Chan`. -/
def ServiceFits (Chan : Chans → Chans → Prop) (now : Int) (s : State) :
    ServiceAct → Prop
  | .chan act => Chan s.chans (act.exec now s.chans)
  | .issueMode serviceP chptr allowSslonly parv =>
      Chan s.chans (parseFullMode (s.issuedCall serviceP chptr allowSslonly)
        parv s.chans).1
  | .exit _ => True

/-- What a member that leaves and a change of topic or masks do is in `Chan`,
and so is whatever is made up of steps of `Chan`. -/
structure Closed (Chan : Chans → Chans → Prop) : Prop where
  refl : ∀ s, Chan s s
  trans : ∀ {r s t}, Chan r s → Chan s t → Chan r t
  leave : ∀ mptr s, Chan s (Chans.delChmember mptr s)
  dress : ∀ chptr {change} s, Dressing change →
    Chan s (Chans.modifyChannel chptr change s)

/-- What a handler does to the channels, if it returns, is in `Chan`. -/
abbrev Moved (Chan : Chans → Chans → Prop) (s : State)
    (outcome : Except Stop State) : Prop :=
  Ensures (fun t => Chan s.chans t.chans) outcome

/-- Each act of the command that the message makes meets the condition. The
command runs after the flood limits were looked at. -/
def CommandMeets (Condition : State → ServiceAct → Prop) (env : Env)
    (now : Int) (clientP : ClientId) (parv : List CString) (s : State)
    (command : Command) : Prop :=
  ∀ serviceP text args, s.serviceCall env parv command =
      some (serviceP, text, args) →
    ∀ user service t, t =
        (s.floodLimit env now serviceP clientP user service text).1 →
      Meets (execService env now) Condition t
        (env.runCommand t serviceP clientP text args).1

abbrev CommandFits (env : Env) (Chan : Chans → Chans → Prop) (now : Int) :
    ClientId → List CString → State → Command → Prop :=
  CommandMeets (ServiceFits Chan now) env now

theorem CommandMeets.mono {Condition Weaker : State → ServiceAct → Prop}
    {env : Env} {now : Int} {clientP : ClientId} {parv : List CString}
    {s : State} {command : Command}
    (meets : CommandMeets Condition env now clientP parv s command)
    (weaker : ∀ s act, Condition s act → Weaker s act) :
    CommandMeets Weaker env now clientP parv s command :=
  fun serviceP text args called user service t same =>
    (meets serviceP text args called user service t same).mono weaker

/-- What a command from the uplink does to channels by its parameters, its
hooks and the services is in `Chan`. -/
def CallFits (env : Env) (Chan : Chans → Chans → Prop) (now : Int)
    (clientP : ClientId) (parv : List CString) (s : State) : Command → Prop
  | .sjoin => Moved Chan s (s.cSjoin env now clientP parv)
  | .join => Moved Chan s (s.cJoin env now clientP parv)
  | .mode => Moved Chan s (s.cMode env now clientP parv)
  | .tmode => Moved Chan s (s.cTmode env now clientP parv)
  | .topic => Moved Chan s (s.cTopic env now clientP parv)
  | .tb => Moved Chan s (s.cTb env now clientP parv)
  | .privmsg => CommandFits env Chan now clientP parv s .privmsg
  | .encap => CommandFits env Chan now clientP parv s .encap
  | _ => True

theorem serviceFits_true (now : Int) (s : State) (act : ServiceAct) :
    ServiceFits (fun _ _ => True) now s act := by
  cases act <;> exact trivial

theorem Closed.trivial : Closed fun _ _ => True where
  refl := fun _ => True.intro
  trans := fun _ _ => True.intro
  leave := fun _ _ => True.intro
  dress := fun _ _ _ _ => True.intro

theorem callFits_true (env : Env) (now : Int) (clientP : ClientId)
    (parv : List CString) (s : State) (command : Command) :
    CallFits env (fun _ _ => True) now clientP parv s command := by
  have moved : ∀ outcome, Moved (fun _ _ => True) s outcome :=
    fun _ => Ensures.intro fun _ _ => trivial
  have fits : ∀ command,
      CommandFits env (fun _ _ => True) now clientP parv s command :=
    fun _ _ _ _ _ _ _ t _ => meets_of_forall (serviceFits_true now) t _
  cases command with
  | sjoin => exact moved _
  | join => exact moved _
  | mode => exact moved _
  | tmode => exact moved _
  | topic => exact moved _
  | tb => exact moved _
  | privmsg => exact fits _
  | encap => exact fits _
  | _ => exact trivial

theorem linkUser_eq_ok {uplinkP : ClientId} {user : Client} {s t : State}
    (linked : s.linkUser uplinkP user = .ok t) :
    ∃ leaf, (s.addUser user).clients.serverOf uplinkP = .ok leaf ∧
      t = (s.addUser user).modifyClient uplinkP (·.onServer fun server =>
        { server with
          users := Dlink.add s.clients.client.next server.users }) := by
  unfold linkUser at linked
  obtain ⟨leaf, there, linked⟩ := Except.bind_eq_ok.mp linked
  cases linked
  exact ⟨leaf, there, rfl⟩

theorem linkLeaf_eq_ok {clientP : ClientId} {server : Client} {s t : State}
    (linked : s.linkLeaf clientP server = .ok t) :
    ∃ leaf, (s.allocClient server).clients.serverOf clientP = .ok leaf ∧
      t = ((s.allocClient server).modifyClient clientP
        (·.onServer fun server =>
          { server with
            servers := Dlink.add s.clients.client.next server.servers })
        ).linkServer s.clients.client.next := by
  unfold linkLeaf at linked
  obtain ⟨leaf, there, linked⟩ := Except.bind_eq_ok.mp linked
  cases linked
  exact ⟨leaf, there, rfl⟩

section Rules

variable {env : Env} {Allowed : State → Hazard → Prop}
  {Chan : Chans → Chans → Prop} {s : State}

theorem effects_then {first : Except Stop State}
    {second : State → Except Stop State}
    (left : Ensures (Effects env Allowed Chan s) first)
    (right : ∀ t, first = .ok t → Effects env Allowed Chan s t →
      Ensures (Effects env Allowed Chan t) (second t)) :
    Ensures (Effects env Allowed Chan s) (first >>= second) := by
  cases equation : first with
  | error reason => exact trivial
  | ok t =>
      rw [equation] at left
      exact Outcome.imp (right t equation left) fun _ rest =>
        Relation.ReflTransGen.trans left rest

theorem effects_after {t : State} {last : Except Stop State}
    (before : Effects env Allowed Chan s t)
    (after : Ensures (Effects env Allowed Chan t) last) :
    Ensures (Effects env Allowed Chan s) last :=
  Outcome.imp after fun _ rest => before.trans rest

theorem effects_foldlM {α : Type} {list : List α}
    {turn : State → α → Except Stop State}
    (each : ∀ s item, Ensures (Effects env Allowed Chan s) (turn s item)) :
    Ensures (Effects env Allowed Chan s) (list.foldlM turn s) := by
  induction list generalizing s with
  | nil => exact Effects.refl
  | cons item rest ih =>
      rw [List.foldlM_cons]
      exact effects_then (each s item) fun t _ _ => ih

theorem effects_meets {α : Type} {list : List α}
    {turn : State → α → Except Stop State} {Condition : State → α → Prop}
    (each : ∀ s item, Condition s item →
      Ensures (Effects env Allowed Chan s) (turn s item))
    (meets : Meets turn Condition s list) :
    Ensures (Effects env Allowed Chan s) (list.foldlM turn s) := by
  induction list generalizing s with
  | nil => exact Effects.refl
  | cons item rest ih =>
      rw [List.foldlM_cons]
      exact effects_then (each s item meets.1) fun t turned _ =>
        ih (meets.2 t turned)

theorem exit_effects {name : CString} {target : ClientId}
    (found : s.clients.Finds name target) :
    Ensures (Effects env Allowed Chan s) (s.exit env target) :=
  Ensures.intro fun _ exited => Effects.one (.exit found exited)

theorem signoff_effects {r : State} (before : Relinked r s)
    (allowed : Allowed r .signoff) :
    Ensures (Effects env Allowed Chan s) (s.signoffServer env) :=
  Ensures.intro fun _ signed => Effects.one (.signoff before allowed signed)

end Rules

end State

end RatboxServices
