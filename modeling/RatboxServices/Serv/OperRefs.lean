import RatboxServices.Lib.Refcount
import RatboxServices.Lib.Run
import RatboxServices.Net.ServerCommand
import RatboxServices.Serv.OperConf

namespace RatboxServices

open CString

/-! The operator blocks in memory, and all that points to one: users and direct
connections, and the opers of servers that split. -/

abbrev OperId := Nat

-- conf.h: a block may be used for direct connections
def confOperDcc : Nat := 5

/-- How the program goes wrong: it uses a block that was freed, or a connection
that has none. -/
inductive OperStop
  | freed
  | noOper
  deriving DecidableEq, Repr

/-- A `struct conf_oper`. -/
structure OperCell extends ConfOper, OperUser where
  refcount : Int := 0
  deriving DecidableEq, Repr, Inhabited

namespace OperCell

def entry (cell : OperCell) : OperEntry where
  toConfOper := cell.toConfOper
  username := cell.username
  host := cell.host
  server := cell.server
  refcount := cell.refcount.toNat

def isDead (cell : OperCell) : Bool :=
  cell.flags.getLsbD confDead

def setDead (cell : OperCell) : OperCell :=
  { cell with flags := cell.flags ||| 1#64 }

def revive (block : OperBlock) (cell : OperCell) : OperCell :=
  { cell with
    pass := block.pass
    flags := block.flags &&& ~~~1#64
    sflags := block.sflags }

/-- The new block of a `user` line. -/
def new (block : OperBlock) (user : OperUser) : OperCell where
  toConfOper := block.toConfOper
  toOperUser := user

def retain (cell : OperCell) : OperCell :=
  { cell with refcount := cell.refcount + 1 }

def release (cell : OperCell) : OperCell :=
  { cell with refcount := cell.refcount - 1 }

end OperCell

/-- A user of `user_list`, with the SID of its server. -/
structure OperClient where
  uid : CString
  username : CString
  host : CString
  servername : CString
  sid : CString
  oper : Option OperId := none
  deriving DecidableEq, Repr

/-- `struct client_oper`. -/
structure StoredOper where
  uid : CString
  username : CString
  host : CString
  sid : CString
  oper : OperId
  timestamp : Int
  deriving DecidableEq, Repr

/-- A `struct lconn` of `connection_list`. A connection that was signed off
keeps its pointer, which does not count any more. -/
structure OperConn where
  name : CString
  outwards : Bool
  connecting : Bool := true
  reading : Bool := false
  auth : Bool := false
  dead : Bool := false
  oper : Option OperId
  signedOff : Bool := false
  deriving DecidableEq, Repr

namespace OperConn

/-- The connection `signoff_client` leaves. -/
def signOff (conn : OperConn) : OperConn :=
  if conn.dead then conn
  else { conn with dead := true, signedOff := true, reading := false }

/-- The block `signoff_client` gives up. -/
def givesUp (conn : OperConn) : Option OperId :=
  if conn.dead then none else conn.oper

def holds (conn : OperConn) : Option OperId :=
  if conn.signedOff then none else conn.oper

end OperConn

structure OperFile where
  blocks : List OperBlock
  splitOperTime : Option Int := none

structure OperState where
  opers : Heap OperCell
  confOperList : List OperId
  users : List OperClient
  conns : List OperConn
  clientOpers : List StoredOper
  splitOperTime : Int
  /-- The connection that is read from, whose lines are handled. -/
  reads : Option Nat

namespace OperState

/-- Before the configuration is read, with `set_default_conf`. -/
def empty : OperState where
  opers := .empty
  confOperList := []
  users := []
  conns := []
  clientOpers := []
  splitOperTime := 600
  reads := none

def readOper (opers : Heap OperCell) (id : OperId) :
    Except OperStop OperCell :=
  match opers.cell id with
  | none => .error .freed
  | some cell => .ok cell

def findOper (test : OperEntry → Bool) (opers : Heap OperCell) :
    List OperId → Except OperStop (Option OperId)
  | [] => .ok none
  | id :: rest => do
      let cell ← readOper opers id
      if test cell.entry then .ok (some id) else findOper test opers rest

/-- `find_conf_oper`. -/
def findConfOper (username host server operUsername : CString)
    (s : OperState) : Except OperStop (Option OperId) :=
  findOper (OperEntry.isFound username host server operUsername) s.opers
    s.confOperList

/-- `refcount++`. -/
def retain (id : OperId) (opers : Heap OperCell) :
    Except OperStop (Heap OperCell) := do
  let _ ← readOper opers id
  .ok (opers.modify id OperCell.retain)

/-- `deallocate_conf_oper`. -/
def deallocateConfOper (opers : Heap OperCell) (id : OperId) :
    Except OperStop (Heap OperCell) := do
  let cell ← readOper opers id
  let opers := opers.modify id OperCell.release
  if cell.isDead && cell.refcount - 1 == 0 then .ok (opers.free id)
  else .ok opers

def giveUp (ids : List OperId) (s : OperState) :
    Except OperStop OperState := do
  let opers ← run deallocateConfOper s.opers ids
  .ok { s with opers := opers }

/-- `SetConfDead`. -/
def setConfDead (opers : Heap OperCell) (id : OperId) :
    Except OperStop (Heap OperCell) := do
  let _ ← readOper opers id
  .ok (opers.modify id OperCell.setDead)

/-- A block of a `user` line goes over a dead one, or to the end of the list. -/
def endOperUser (block : OperBlock) (s : OperState) (user : OperUser) :
    Except OperStop OperState := do
  match ← findOper (OperEntry.isFor block user) s.opers s.confOperList with
  | some id => .ok { s with opers := s.opers.modify id (.revive block) }
  | none =>
      .ok
        { s with
          opers := s.opers.alloc (.new block user)
          confOperList := s.confOperList ++ [s.opers.next] }

/-- `conf_end_operator`. -/
def confEndOperator (s : OperState) (block : OperBlock) :
    Except OperStop OperState :=
  if block.isValid then run (endOperUser block) s block.users else .ok s

/-- `clear_old_conf_final`. -/
def clearOldConfFinal (opers : Heap OperCell) :
    List OperId → Except OperStop (List OperId × Heap OperCell)
  | [] => .ok ([], opers)
  | id :: rest => do
      let cell ← readOper opers id
      if cell.isDead && cell.refcount == 0 then
        clearOldConfFinal (opers.free id) rest
      else
        let (list, opers) ← clearOldConfFinal opers rest
        .ok (id :: list, opers)

/-- `conf_parse`, with the loop of `clear_old_conf`. A file that does not open
changes nothing. -/
def rehash (file : Option OperFile) (s : OperState) :
    Except OperStop OperState :=
  match file with
  | none => .ok s
  | some file => do
      let opers ← run setConfDead s.opers s.confOperList
      let s ← run confEndOperator { s with opers := opers } file.blocks
      let (list, opers) ← clearOldConfFinal s.opers s.confOperList
      .ok
        { s with
          opers := opers
          confOperList := list
          splitOperTime := file.splitOperTime.getD s.splitOperTime }

/-- `OLOGIN`. -/
def ologin (crypt : CString → CString → CString) (client : Nat)
    (parv : List CString) (s : OperState) : Except OperStop OperState :=
  match s.users[client]? with
  | none => .ok s
  | some user =>
      if user.oper.isSome || decide (parv.length < 2) then .ok s
      else do
        match ← s.findConfOper user.username user.host user.servername
            (parv.getD 0 []) with
        | none => .ok s
        | some id =>
            let cell ← readOper s.opers id
            if !cell.accepts crypt (parv.getD 1 []) then .ok s
            else
              let opers ← retain id s.opers
              .ok
                { s with
                  opers := opers
                  users := s.users.set client { user with oper := some id } }

/-- `OLOGOUT`. -/
def ologout (client : Nat) (s : OperState) : Except OperStop OperState :=
  match s.users[client]? with
  | none => .ok s
  | some user =>
      giveUp user.oper.toList
        { s with users := s.users.set client { user with oper := none } }

def uidLen : Nat := 9

def userLen : Nat := 10

def hostLen : Nat := 63

/-- `store_client_oper`. -/
def storeClientOper (now : Int) (user : OperClient) (id : OperId)
    (s : OperState) : Except OperStop OperState := do
  let opers ← retain id s.opers
  .ok
    { s with
      opers := opers
      clientOpers :=
        { uid := strlcpy (uidLen + 1) user.uid
          username := strlcpy (userLen + 1) user.username
          host := strlcpy (hostLen + 1) user.host
          sid := strlcpy (uidLen + 1) user.sid
          oper := id
          timestamp := now } :: s.clientOpers }

def isStored (split : Bool) (s : OperState) : Bool :=
  split && decide (0 < s.splitOperTime)

/-- `exit_user`, with which the user leaves `user_list`. -/
def exitUser (client : Nat) (split : Bool) (now : Int) (s : OperState) :
    Except OperStop OperState :=
  match s.users[client]? with
  | none => .ok s
  | some user =>
      let s := { s with users := s.users.eraseIdx client }
      match user.oper with
      | none => .ok s
      | some id =>
          (if s.isStored split then s.storeClientOper now user id
            else .ok s) >>= giveUp [id]

/-- `free_client_oper` on the entries that are to go. -/
def freeClientOpers (goes : StoredOper → Bool) (s : OperState) :
    Except OperStop OperState :=
  giveUp ((s.clientOpers.filter goes).map StoredOper.oper)
    { s with clientOpers := s.clientOpers.filter fun stored => !goes stored }

/-- `clear_client_oper_sid`. -/
def isFrom (sid : CString) (stored : StoredOper) : Bool :=
  irccmp stored.sid sid

/-- `expire_client_oper`. -/
def isStale (now : Int) (s : OperState) (stored : StoredOper) : Bool :=
  decide (stored.timestamp + s.splitOperTime < now)

/-- `connect_to_client` and `connect_from_client`, behind the checks of
`c_message`. -/
def openConn (client : Nat) (outwards : Bool) (s : OperState) :
    Except OperStop OperState :=
  match s.users[client]? with
  | none => .ok s
  | some user => do
      match ← s.findConfOper user.username user.host user.servername [] with
      | none => .ok s
      | some id =>
          let cell ← readOper s.opers id
          if !cell.flags.getLsbD confOperDcc then .ok s
          else
            let opers ← retain id s.opers
            .ok
              { s with
                opers := opers
                conns :=
                  { name := cell.name, outwards := outwards, oper := some id }
                    :: s.conns }

def onConn (i : Nat) (change : OperConn → OperConn) (s : OperState) :
    OperState :=
  match s.conns[i]? with
  | none => s
  | some conn => { s with conns := s.conns.set i (change conn) }

/-- `signon_client_in` and `signon_client_out`. -/
def signOn (fails : Bool) (conn : OperConn) : OperConn :=
  if conn.connecting && !conn.dead then
    { conn with
      connecting := false
      dead := fails
      reading := !(conn.outwards && fails) }
  else conn

/-- `signoff_client`. -/
def signoffClient (i : Nat) (s : OperState) : Except OperStop OperState :=
  match s.conns[i]? with
  | none => .ok s
  | some conn =>
      giveUp conn.givesUp.toList
        { s with conns := s.conns.set i conn.signOff }

def openFailed (i : Nat) (s : OperState) : Except OperStop OperState :=
  match s.conns[i]? with
  | none => .ok s
  | some conn =>
      if conn.connecting && !conn.dead then s.signoffClient i else .ok s

/-- `read_any`. Lines that came before the end of the connection are handled
behind it. -/
def readAny (i : Nat) (closes : Bool) (s : OperState) :
    Except OperStop OperState :=
  match s.conns[i]? with
  | none => .ok s
  | some conn =>
      if conn.reading then
        (if closes then s.signoffClient i else .ok s) >>= fun s =>
          .ok { s with reads := some i }
      else .ok s

/-- The connection whose line is handled. `IsDead` of `client.h` looks at the bit
of a connection that is being made. -/
def reader (i : Nat) (s : OperState) : Option OperConn :=
  if s.reads = some i then
    s.conns[i]?.filter fun conn => !conn.connecting
  else none

/-- `u_login`, which only a connection that is not logged in comes to. -/
def uLogin (crypt : CString → CString → CString) (i : Nat)
    (parv : List CString) (s : OperState) : Except OperStop OperState :=
  match s.reader i with
  | none => .ok s
  | some conn =>
      if conn.auth || lacks parv 2 1 then .ok s
      else
        match conn.oper with
        | none => .error .noOper
        | some id => do
            let cell ← readOper s.opers id
            if !cell.accepts crypt (parv.getD 1 []) then .ok s
            else
              giveUp [id]
                { s with
                  conns :=
                    s.conns.set i { conn with auth := true, oper := none } }

/-- `u_quit`. -/
def uQuit (i : Nat) (s : OperState) : Except OperStop OperState :=
  match s.reader i with
  | none => .ok s
  | some conn => if conn.auth then s.signoffClient i else .ok s

/-- `u_rehash`. -/
def uRehash (i : Nat) (file : Option OperFile) (s : OperState) :
    Except OperStop OperState :=
  match s.reader i with
  | none => .ok s
  | some conn => if conn.auth then s.rehash file else .ok s

def isBooted (name : CString) (opers : Heap OperCell) (user : OperClient) :
    Bool :=
  match user.oper.bind opers.cell with
  | none => false
  | some cell => irccmp cell.name name

def isNamed (name : CString) (conn : OperConn) : Bool :=
  irccmp conn.name name

/-- The blocks `u_boot` gives up. -/
def bootedOpers (name : CString) (s : OperState) : List OperId :=
  (s.users.filter (isBooted name s.opers)).filterMap OperClient.oper ++
    (s.conns.filter (isNamed name)).filterMap OperConn.givesUp

/-- `u_boot`. The name of a block is the same as long as it is used, so that it
does not matter when it is read. -/
def uBoot (i : Nat) (name : CString) (s : OperState) :
    Except OperStop OperState :=
  match s.reader i with
  | none => .ok s
  | some conn =>
      if !conn.auth then .ok s
      else do
        let _ ← run (fun _ => readOper s.opers) default
          (s.users.filterMap OperClient.oper)
        giveUp (s.bootedOpers name)
          { s with
            users := s.users.map fun user =>
              if isBooted name s.opers user then { user with oper := none }
              else user
            conns := s.conns.map fun conn =>
              if isNamed name conn then conn.signOff else conn }

/-- What happens. A write that fails in the middle of something is an event of
its own, before or behind it. -/
inductive OperEvent
  | rehash (file : Option OperFile)
  | introduce (user : OperClient)
  | ologin (client : Nat) (parv : List CString)
  | ologout (client : Nat)
  | exit (client : Nat) (split : Bool) (now : Int)
  | eob (sid : CString)
  | expire (now : Int)
  | opened (client : Nat) (outwards : Bool)
  | signon (i : Nat) (fails : Bool)
  | openFailed (i : Nat)
  | writeError (i : Nat)
  | read (i : Nat) (closes : Bool)
  | login (i : Nat) (parv : List CString)
  | quit (i : Nat)
  | boot (i : Nat) (name : CString)
  | rehashLine (i : Nat) (file : Option OperFile)
  /-- `cleanup_exited_clients` -/
  | cleanup

def OperEvent.isLine : OperEvent → Bool
  | .login _ _ => true
  | .quit _ => true
  | .boot _ _ => true
  | .rehashLine _ _ => true
  | .writeError _ => true
  | _ => false

def act (crypt : CString → CString → CString) (s : OperState) :
    OperEvent → Except OperStop OperState
  | .rehash file => s.rehash file
  | .introduce user =>
      .ok { s with users := { user with oper := none } :: s.users }
  | .ologin client parv => s.ologin crypt client parv
  | .ologout client => s.ologout client
  | .exit client split now => s.exitUser client split now
  | .eob sid => s.freeClientOpers (isFrom sid)
  | .expire now => s.freeClientOpers (s.isStale now)
  | .opened client outwards => s.openConn client outwards
  | .signon i fails => .ok (s.onConn i (signOn fails))
  | .openFailed i => s.openFailed i
  | .writeError i => .ok (s.onConn i fun conn => { conn with dead := true })
  | .read i closes => s.readAny i closes
  | .login i parv => s.uLogin crypt i parv
  | .quit i => s.uQuit i
  | .boot i name => s.uBoot i name
  | .rehashLine i file => s.uRehash i file
  | .cleanup =>
      .ok { s with conns := s.conns.filter fun conn => !conn.dead }

def step (crypt : CString → CString → CString) (s : OperState)
    (event : OperEvent) : Except OperStop OperState :=
  act crypt (if event.isLine then s else { s with reads := none }) event

end OperState

end RatboxServices
