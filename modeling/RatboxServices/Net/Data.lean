import RatboxServices.Irc.CString
import RatboxServices.Lib.Dlink
import RatboxServices.Lib.Heap
import RatboxServices.Lib.Word

namespace RatboxServices

/-! The records of `client.h`, `channel.h` and `io.h`. A pointer is the address
of its cell in the heap of its type. -/

abbrev ClientId := Nat

abbrev ChannelId := Nat

abbrev MemberId := Nat

-- client.h: flags of a client
def flagsDead : Nat := 0
def flagsEob : Nat := 1
def flagsRsfnc : Nat := 2
def flagsNodns : Nat := 3

-- client.h: umode of a user
def clientInvis : Nat := 0
def clientOper : Nat := 1
def clientAdmin : Nat := 2

-- client.h: flags and status of a service
def serviceDisabled : Nat := 2
def serviceStealth : Nat := 4
def serviceLoginhelp : Nat := 5
def serviceShortcut : Nat := 7
def serviceIntroduced : Nat := 0
def serviceReintroduce : Nat := 1

-- channel.h: channel modes
def modeInviteonly : Nat := 0
def modeModerated : Nat := 1
def modeNoexternal : Nat := 2
def modePrivate : Nat := 3
def modeSecret : Nat := 4
def modeTopic : Nat := 5
def modeLimit : Nat := 6
def modeKey : Nat := 7
def modeRegonly : Nat := 8
def modeSslonly : Nat := 9

-- channel.h: flags of a channel member
def modeOpped : Nat := 0
def modeVoiced : Nat := 1
def modeDeopped : Nat := 2

-- io.h: flags of a connection
def connConnecting : Nat := 0
def connDccin : Nat := 1
def connDccout : Nat := 2
def connHandshake : Nat := 3
def connDead : Nat := 4
def connSentping : Nat := 5
def connTs : Nat := 6
def connCapService : Nat := 7
def connCapRsfnc : Nat := 8
def connCapTb : Nat := 9
def connFlagsEob : Nat := 13
def connFlagsSentburst : Nat := 14
def connFlagsAuth : Nat := 16
def connFlagsChat : Nat := 17

-- conf.h: flags of an operator block
def confOperEncrypted : Nat := 4
def confOperAdmin : Nat := 8
def confOperRoute : Nat := 9

def channelLen : Nat := 200
def keyLen : Nat := 24
def hostLen : Nat := 63
def uidLen : Nat := 9
def userLen : Nat := 10
def realLen : Nat := 50

structure Chmode where
  mode : Word := 0#32
  key : CString := []
  limit : Int := 0
  deriving DecidableEq, Repr, Inhabited

structure Channel where
  name : CString
  topic : CString := []
  topicwho : CString := []
  tsinfo : Int := 0
  topicTsinfo : Int := 0
  users : List MemberId := []
  usersOpped : List MemberId := []
  usersUnopped : List MemberId := []
  services : List ClientId := []
  bans : List CString := []
  excepts : List CString := []
  invites : List CString := []
  mode : Chmode := {}
  deriving DecidableEq, Repr, Inhabited

structure Chmember where
  chptr : ChannelId
  clientP : ClientId
  flags : Word
  deriving DecidableEq, Repr, Inhabited

def Chmember.isOpped (member : Chmember) : Bool :=
  member.flags.has modeOpped

def Chmember.isVoiced (member : Chmember) : Bool :=
  member.flags.has modeVoiced

structure Server where
  users : List ClientId := []
  servers : List ClientId := []
  hops : Int := 0
  deriving DecidableEq, Repr, Inhabited

structure ConfOper where
  name : CString
  pass : CString
  flags : BitVec 64 := 0#64
  sflags : BitVec 64 := 0#64
  deriving DecidableEq, Repr, Inhabited

structure User where
  username : CString := []
  host : CString := []
  ip : Option CString := none
  servername : CString := []
  mask : CString := []
  umode : Word := 0#32
  tsinfo : Int := 0
  floodCount : Int := 0
  floodTime : Int := 0
  oper : Option ConfOper := none
  userReg : Option CString := none
  deriving DecidableEq, Repr, Inhabited

structure Service where
  username : CString := []
  host : CString := []
  status : Word := 0#32
  flags : Word := 0#32
  flood : Int := 0
  floodMax : Int := 0
  hasCommands : Bool := true
  deriving DecidableEq, Repr, Inhabited

/-- What a client is. The source keeps three pointers of which exactly one is
set when the client is allocated and none is ever changed. -/
inductive Part where
  | server (server : Server)
  | user (user : User)
  | service (service : Service)
  deriving DecidableEq, Repr

structure Client where
  name : CString
  info : CString := []
  uid : CString := []
  flags : Word := 0#32
  part : Part
  uplink : Option ClientId := none
  deriving DecidableEq, Repr

namespace Client

def isServer (client : Client) : Bool :=
  match client.part with
  | .server _ => true
  | _ => false

def isUser (client : Client) : Bool :=
  match client.part with
  | .user _ => true
  | _ => false

def isService (client : Client) : Bool :=
  match client.part with
  | .service _ => true
  | _ => false

def isDead (client : Client) : Bool :=
  client.flags.has flagsDead

def isEob (client : Client) : Bool :=
  client.flags.has flagsEob

/-- `ServiceIntroduced`, on a client that is a service. -/
def introduced (client : Client) : Bool :=
  match client.part with
  | .service service => service.status.has serviceIntroduced
  | _ => false

/-- `ServiceDisabled`. -/
def disabled (client : Client) : Bool :=
  match client.part with
  | .service service => service.flags.has serviceDisabled
  | _ => false

def onServer (change : Server → Server) (client : Client) : Client :=
  match client.part with
  | .server server => { client with part := .server (change server) }
  | _ => client

def onUser (change : User → User) (client : Client) : Client :=
  match client.part with
  | .user user => { client with part := .user (change user) }
  | _ => client

def onService (change : Service → Service) (client : Client) : Client :=
  match client.part with
  | .service service => { client with part := .service (change service) }
  | _ => client

def setFlag (bit : Nat) (client : Client) : Client :=
  { client with flags := client.flags.set bit }

end Client

structure Lconn where
  name : CString
  sid : Option CString := none
  pass : CString := []
  flags : Word := 0#32
  firstTime : Int := 0
  lastTime : Int := 0
  clientP : Option ClientId := none
  /-- The descriptor is open and `read_server` is registered for it. -/
  reading : Bool := false
  /-- A `PASS` line was accepted on this connection. -/
  passed : Bool := false
  /-- The connection was marked dead by `signoff_server`. -/
  signedOff : Bool := false
  /-- The time `connect_to_server` opened the connection at. -/
  opened : Int := 0
  /-- The time of the last read that returned data. -/
  lastData : Option Int := none
  deriving DecidableEq, Repr

namespace Lconn

/-- `ConnDead`. -/
def dead (conn : Lconn) : Bool :=
  conn.flags.has connDead

/-- `IsDead` of `client.h` applied to a connection: the bit is that of
`CONN_CONNECTING`. -/
def isDead (conn : Lconn) : Bool :=
  conn.flags.has flagsDead

def setFlag (bit : Nat) (conn : Lconn) : Lconn :=
  { conn with flags := conn.flags.set bit }

def clearFlag (bit : Nat) (conn : Lconn) : Lconn :=
  { conn with flags := conn.flags.clear bit }

theorem dead_setFlag {conn : Lconn} {bit : Nat} (dead : conn.dead = true) :
    (conn.setFlag bit).dead = true := by
  unfold Lconn.dead at dead ⊢
  simp [setFlag, dead]

theorem dead_clearFlag {conn : Lconn} {bit : Nat} (other : bit ≠ connDead) :
    (conn.clearFlag bit).dead = conn.dead := by
  simp [Lconn.dead, clearFlag, other]

/-- What `signoff_server` does to the connection itself. -/
def giveUp (conn : Lconn) : Lconn :=
  { conn.setFlag connDead with reading := false, signedOff := true }

theorem dead_giveUp (conn : Lconn) : conn.giveUp.dead = true := by
  simp [giveUp, Lconn.dead, setFlag, connDead]

/-- What `signon_server` does to the connection. A failed write of the password
ends it before the descriptor is read. -/
def signOn (writeFails : Bool) (conn : Lconn) : Lconn :=
  let conn := (conn.clearFlag connConnecting).setFlag connHandshake
  if writeFails then conn.setFlag connDead else { conn with reading := true }

def introduce (now : Int) (target : ClientId) (conn : Lconn) : Lconn :=
  { conn.clearFlag connHandshake with
    firstTime := now
    clientP := some target }

/-- A connection as `connect_to_server` opens it. -/
def fresh (name pass : CString) (now : Int) : Lconn where
  name := name
  pass := pass
  firstTime := now
  lastTime := now
  opened := now
  flags := Word.ofBits [connConnecting]

end Lconn

end RatboxServices
