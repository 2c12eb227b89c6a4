import RatboxServices.Lib.Run
import RatboxServices.Net.Mode

namespace RatboxServices

open CString

/-! The state of the daemon: the clients and their tables, the channels, the
connection to the uplink and the pending connect events. -/

inductive Fault where
  | parameter (index : Nat)
  | nullClient
  | noUser (client : ClientId)
  | noServer (client : ClientId)
  | noService (client : ClientId)
  | nullUplink
  | nullSid
  deriving DecidableEq, Repr

/-- Why a step does not return: `die`, an undefined access, or a server tree
deeper than the clients allocated. -/
inductive Stop where
  | die
  | fault (reason : Fault)
  | depth
  deriving DecidableEq, Repr

/-- The clients, `name_table` and `uid_table`, and the lists of `client.c` and
`service.c`. -/
structure Clients where
  client : Heap Client
  nameTable : Nat → DlinkList ClientId
  uidTable : Nat → DlinkList ClientId
  userList : List ClientId
  serverList : List ClientId
  exitedList : List ClientId
  serviceList : List ClientId
  /-- The clients `del_client` was applied to while they were not linked. -/
  unlinkedDeletes : List ClientId

structure State where
  clients : Clients
  chans : Chans
  serverP : Option Lconn
  /-- The pending `connect_to_server` events. -/
  connectEvents : Nat
  pingTime : Int
  firstKill : Int
  numKill : Int

namespace Clients

/-- What `rb_dlinkDelete` does to a list the node is not linked in. -/
abbrev Wild := ClientId → DlinkList ClientId → DlinkList ClientId

def empty : Clients where
  client := .empty
  nameTable := fun _ => .empty
  uidTable := fun _ => .empty
  userList := []
  serverList := []
  exitedList := []
  serviceList := []
  unlinkedDeletes := []

def modify (target : ClientId) (change : Client → Client) (s : Clients) :
    Clients :=
  { s with client := s.client.modify target change }

def onName (hashv : Nat) (change : DlinkList ClientId → DlinkList ClientId)
    (s : Clients) : Clients :=
  { s with
    nameTable := Function.update s.nameTable hashv (change (s.nameTable hashv)) }

def onUid (hashv : Nat) (change : DlinkList ClientId → DlinkList ClientId)
    (s : Clients) : Clients :=
  { s with
    uidTable := Function.update s.uidTable hashv (change (s.uidTable hashv)) }

/-- `add_client`. -/
def addClient (target : ClientId) (s : Clients) : Clients :=
  match s.client.cell target with
  | none => s
  | some client =>
      let s := s.onName (hashName client.name) (·.add target)
      if client.uid.isEmpty then s
      else s.onUid (hashName client.uid) (·.add target)

/-- The client is linked in `name_table`, and in `uid_table` when it has a
uid. -/
def linked (s : Clients) (target : ClientId) (client : Client) : Bool :=
  decide (target ∈ (s.nameTable (hashName client.name)).nodes) &&
    (client.uid.isEmpty ||
      decide (target ∈ (s.uidTable (hashName client.uid)).nodes))

/-- `del_client`. -/
def delClient (wild : Wild) (target : ClientId) (s : Clients) : Clients :=
  match s.client.cell target with
  | none => s
  | some client =>
      let record :=
        if s.linked target client then s.unlinkedDeletes
        else target :: s.unlinkedDeletes
      let s := s.onName (hashName client.name) (·.delete wild target)
      let s :=
        if client.uid.isEmpty then s
        else s.onUid (hashName client.uid) (·.delete wild target)
      { s with unlinkedDeletes := record }

def hasName (s : Clients) (name : CString) (target : ClientId) : Bool :=
  match s.client.cell target with
  | some client => irccmp client.name name
  | none => false

def hasUid (s : Clients) (name : CString) (target : ClientId) : Bool :=
  match s.client.cell target with
  | some client => irccmp client.uid name
  | none => false

/-- `find_named_client`. -/
def findNamedClient (s : Clients) (name : CString) : Option ClientId :=
  (s.nameTable (hashName name)).nodes.find? (s.hasName name)

/-- `find_uid`. -/
def findUid (s : Clients) (name : CString) : Option ClientId :=
  (s.uidTable (hashName name)).nodes.find? (s.hasUid name)

/-- `find_client`. -/
def findClient (s : Clients) (name : CString) : Option ClientId :=
  if firstIs isDigit name then
    match s.findUid name with
    | some target => some target
    | none => s.findNamedClient name
  else s.findNamedClient name

def isUser (s : Clients) (target : ClientId) : Bool :=
  match s.client.cell target with
  | some client => client.isUser
  | none => false

def isServer (s : Clients) (target : ClientId) : Bool :=
  match s.client.cell target with
  | some client => client.isServer
  | none => false

def isService (s : Clients) (target : ClientId) : Bool :=
  match s.client.cell target with
  | some client => client.isService
  | none => false

/-- `find_user`. -/
def findUser (s : Clients) (name : CString) (searchUid : Bool) :
    Option ClientId :=
  (if searchUid then s.findClient name else s.findNamedClient name).filter
    s.isUser

/-- `find_server`. -/
def findServer (s : Clients) (name : CString) : Option ClientId :=
  (s.findClient name).filter s.isServer

/-- `find_service`. -/
def findService (s : Clients) (name : CString) : Option ClientId :=
  (s.findClient name).filter s.isService

def deref (s : Clients) (target : ClientId) : Except Stop Client :=
  match s.client.cell target with
  | some client => .ok client
  | none => .error (.fault .nullClient)

/-- `target_p->user`. -/
def userOf (s : Clients) (target : ClientId) : Except Stop User :=
  match s.client.cell target with
  | some client =>
      match client.part with
      | .user user => .ok user
      | _ => .error (.fault (.noUser target))
  | none => .error (.fault .nullClient)

/-- `target_p->server`. -/
def serverOf (s : Clients) (target : ClientId) : Except Stop Server :=
  match s.client.cell target with
  | some client =>
      match client.part with
      | .server server => .ok server
      | _ => .error (.fault (.noServer target))
  | none => .error (.fault .nullClient)

/-- `target_p->service`. -/
def serviceOf (s : Clients) (target : ClientId) : Except Stop Service :=
  match s.client.cell target with
  | some client =>
      match client.part with
      | .service service => .ok service
      | _ => .error (.fault (.noService target))
  | none => .error (.fault .nullClient)

end Clients

/-- A lookup whose result is used without a test for `NULL`. -/
def nonNull {α : Type} : Option α → Except Stop α
  | some value => .ok value
  | none => .error (.fault .nullClient)

/-- `parv[index]` used as a string. -/
def param (parv : List CString) (index : Nat) : Except Stop CString :=
  match parv[index]? with
  | some value => .ok value
  | none => .error (.fault (.parameter index))

/-- `EmptyString(parv[index])`: the vector ends in a `NULL` at `parc`. -/
def emptyParam (parv : List CString) (index : Nat) : Except Stop Bool :=
  if index ≤ parv.length then .ok (parv.getD index []).isEmpty
  else .error (.fault (.parameter index))

/-- `parc < count || EmptyString(parv[index])`, for an index below `count`. -/
def lacks (parv : List CString) (count index : Nat) : Bool :=
  decide (parv.length < count) || (parv.getD index []).isEmpty

namespace State

def onClients (change : Clients → Clients) (s : State) : State :=
  { s with clients := change s.clients }

def onChans (change : Chans → Chans) (s : State) : State :=
  { s with chans := change s.chans }

def onLink (change : Lconn → Lconn) (s : State) : State :=
  { s with serverP := s.serverP.map change }

def modifyClient (target : ClientId) (change : Client → Client)
    (s : State) : State :=
  s.onClients (Clients.modify target change)

/-- `server_p`, where the code follows it. -/
def uplink (s : State) : Except Stop Lconn :=
  match s.serverP with
  | some conn => .ok conn
  | none => .error (.fault .nullUplink)

/-- `sent_burst`. -/
def sentBurst (s : State) : Bool :=
  match s.serverP with
  | some conn => conn.flags.has connFlagsSentburst
  | none => false

/-- `finished_bursting`. -/
def finishedBursting (s : State) : Bool :=
  match s.serverP with
  | some conn => conn.flags.has connFlagsEob
  | none => false

@[simp] theorem onClients_clients (s : State) (change : Clients → Clients) :
    (s.onClients change).clients = change s.clients := rfl

@[simp] theorem onClients_chans (s : State) (change : Clients → Clients) :
    (s.onClients change).chans = s.chans := rfl

@[simp] theorem onClients_serverP (s : State)
    (change : Clients → Clients) :
    (s.onClients change).serverP = s.serverP := rfl

@[simp] theorem onChans_chans (s : State) (change : Chans → Chans) :
    (s.onChans change).chans = change s.chans := rfl

@[simp] theorem onChans_clients (s : State) (change : Chans → Chans) :
    (s.onChans change).clients = s.clients := rfl

@[simp] theorem onChans_serverP (s : State) (change : Chans → Chans) :
    (s.onChans change).serverP = s.serverP := rfl

@[simp] theorem onLink_clients (s : State) (change : Lconn → Lconn) :
    (s.onLink change).clients = s.clients := rfl

@[simp] theorem onLink_chans (s : State) (change : Lconn → Lconn) :
    (s.onLink change).chans = s.chans := rfl

end State

end RatboxServices
