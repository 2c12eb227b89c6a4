import RatboxServices.Net.Act

namespace RatboxServices

/-! `exit_client` with `exit_user` and `exit_server`, and the introduction of
the services. -/

namespace State

def unlinkUp (uplink : ClientId) (change : Server → Server) (s : State) :
    Except Stop State := do
  let _ ← s.clients.serverOf uplink
  .ok (s.modifyClient uplink (·.onServer change))

/-- `exit_user`. -/
def exitUser (target : ClientId) (client : Client) (s : State) :
    Except Stop State :=
  if client.isDead then .ok s
  else do
    let s := s.modifyClient target (·.setFlag flagsDead)
    let s := s.onChans fun chans =>
      (chans.userChannels target).foldl (fun chans mptr =>
        chans.delChmember mptr) chans
    let s := s.onClients fun clients =>
      { clients with
        userList := Dlink.delete target clients.userList
        exitedList := Dlink.add target clients.exitedList }
    let uplink ← nonNull client.uplink
    s.unlinkUp uplink fun server =>
      { server with users := Dlink.delete target server.users }

/-- `exit_server`, with the recursive call to `exit_client`. -/
def exitServer (exit : ClientId → State → Except Stop State)
    (target : ClientId) (client : Client) (s : State) : Except Stop State :=
  if client.isDead then .ok s
  else do
    let s := s.modifyClient target (·.setFlag flagsDead)
    let server ← s.clients.serverOf target
    let s ← server.users.foldlM (fun s user => exit user s) s
    let server ← s.clients.serverOf target
    let s ← server.servers.foldlM (fun s leaf => exit leaf s) s
    let s := s.onClients fun clients =>
      { clients with
        serverList := Dlink.delete target clients.serverList
        exitedList := Dlink.add target clients.exitedList }
    match client.uplink with
    | none => .ok s
    | some uplink =>
        s.unlinkUp uplink fun server =>
          { server with servers := Dlink.delete target server.servers }

/-- `exit_client`, to a depth of nested servers. -/
def exitClient (wild : Clients.Wild) :
    Nat → ClientId → State → Except Stop State
  | 0, _, _ => .error .depth
  | depth + 1, target, s => do
      let client ← s.clients.deref target
      match client.part with
      | .service _ => .ok s
      | .server _ =>
          let s ← exitServer (exitClient wild depth) target client s
          .ok (s.onClients (Clients.delClient wild target))
      | .user _ =>
          let s ← exitUser target client s
          .ok (s.onClients (Clients.delClient wild target))

/-- `exit_client`: no chain of servers is longer than the clients are many. -/
def exit (env : Env) (target : ClientId) (s : State) : Except Stop State :=
  exitClient env.wild (s.clients.client.next + 1) target s

end State

namespace Client

def setStatus (bit : Nat) (client : Client) : Client :=
  client.onService fun service =>
    { service with status := service.status.set bit }

def clearStatus (bit : Nat) (client : Client) : Client :=
  client.onService fun service =>
    { service with status := service.status.clear bit }

def reintroduce (client : Client) : Bool :=
  match client.part with
  | .service service => service.status.has serviceReintroduce
  | _ => false

end Client

namespace Clients

/-- `introduce_service`. -/
def introduceService (target : ClientId) (s : Clients) : Clients :=
  (s.modify target (·.setStatus serviceIntroduced)).addClient target

/-- `deintroduce_service`. -/
def deintroduceService (wild : Wild) (target : ClientId) (s : Clients) :
    Clients :=
  (s.modify target (·.clearStatus serviceIntroduced)).delClient wild target

/-- `reintroduce_service`. -/
def reintroduceService (wild : Wild) (target : ClientId) (s : Clients) :
    Clients :=
  ((s.delClient wild target).introduceService target).modify target
    (·.clearStatus serviceReintroduce)

def isDisabled (s : Clients) (target : ClientId) : Bool :=
  match s.client.cell target with
  | some client => client.disabled
  | none => false

def isIntroduced (s : Clients) (target : ClientId) : Bool :=
  match s.client.cell target with
  | some client => client.introduced
  | none => false

def needsReintroduce (s : Clients) (target : ClientId) : Bool :=
  match s.client.cell target with
  | some client => client.reintroduce
  | none => false

/-- `introduce_services`. -/
def introduceServices (s : Clients) : Clients :=
  s.serviceList.foldl (fun s serviceP =>
    if s.isDisabled serviceP then s else s.introduceService serviceP) s

/-- The loop of `signoff_server` over the services. -/
def signoffServices (wild : Wild) (s : Clients) : Clients :=
  s.serviceList.foldl (fun s serviceP =>
    (s.modify serviceP (·.clearStatus serviceIntroduced)).delClient wild
      serviceP) s

/-- What `conf_parse` does with one service once the file is read. -/
def reloadService (wild : Wild) (s : Clients) (target : ClientId) :
    Clients :=
  if s.isIntroduced target then
    if s.isDisabled target then s.deintroduceService wild target
    else if s.needsReintroduce target then s.reintroduceService wild target
    else s.modify target (·.clearStatus serviceReintroduce)
  else
    let s := if s.isDisabled target then s else s.introduceService target
    s.modify target (·.clearStatus serviceReintroduce)

end Clients

namespace State

/-- `signoff_server` on a connection that is not dead yet, up to the exit of
the uplink: the services are marked and unlinked and a new connection is
scheduled. -/
def signoffState (env : Env) (s : State) : State :=
  { s with
    serverP := s.serverP.map Lconn.giveUp
    clients := s.clients.signoffServices env.wild
    connectEvents := s.connectEvents + 1 }

/-- `signoff_server(server_p)`. -/
def signoffServer (env : Env) (s : State) : Except Stop State := do
  let conn ← s.uplink
  if conn.dead then .ok s
  else
    match conn.clientP with
    | none => .ok (s.signoffState env)
    | some target => (s.signoffState env).exit env target

end State

end RatboxServices
