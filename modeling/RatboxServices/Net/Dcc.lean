import RatboxServices.Net.System

namespace RatboxServices

open CString

/-! The direct connections of operators and the commands they bring, and the
daemon they are a part of. -/

abbrev ConnId := Nat

/-- A `struct lconn` of `connection_list`. -/
structure DccConn where
  name : CString
  flags : Word
  privs : Word := 0#32
  sprivs : Word := 0#32
  oper : Option ConfOper
  /-- The descriptor is open and `read_client` is registered for it. -/
  reading : Bool := false
  /-- The connection was marked dead by `signoff_client`. -/
  signedOff : Bool := false
  deriving DecidableEq, Repr

namespace DccConn

/-- `ConnDead`. -/
def dead (conn : DccConn) : Bool :=
  conn.flags.has connDead

/-- `IsDead` of `client.h` applied to a connection. -/
def isDead (conn : DccConn) : Bool :=
  conn.flags.has flagsDead

def auth (conn : DccConn) : Bool :=
  conn.flags.has connFlagsAuth

def chat (conn : DccConn) : Bool :=
  conn.flags.has connFlagsChat

def setFlag (bit : Nat) (conn : DccConn) : DccConn :=
  { conn with flags := conn.flags.set bit }

def clearFlag (bit : Nat) (conn : DccConn) : DccConn :=
  { conn with flags := conn.flags.clear bit }

/-- `send_queued`. -/
def write (fails : Bool) (conn : DccConn) : DccConn :=
  if fails then conn.setFlag connDead else conn

/-- What `signoff_client` does to a live connection. -/
def giveUp (conn : DccConn) : DccConn :=
  { conn.setFlag connDead with reading := false, signedOff := true }

/-- The connection `u_login` leaves after the right password. -/
def login (oper : ConfOper) (conn : DccConn) : DccConn :=
  { (conn.setFlag connFlagsAuth).setFlag connFlagsChat with
    privs := oper.flags.setWidth 32
    sprivs := oper.sflags.setWidth 32
    oper := none }

/-- `connect_callback` is still to come. -/
def awaits (conn : DccConn) : Bool :=
  conn.flags.has connConnecting && !conn.dead

/-- `signon_client_in` and `signon_client_out`. Only the second looks whether
its first write failed. -/
def signOn (fails : Bool) (conn : DccConn) : DccConn :=
  let conn := (conn.clearFlag connConnecting).write fails
  if conn.flags.has connDccout && conn.dead then conn
  else { conn with reading := true }

/-- The connection `connect_to_client` and `connect_from_client` make. -/
def fresh (oper : ConfOper) (outwards : Bool) : DccConn where
  name := oper.name
  flags := .ofBits
    [connConnecting, if outwards then connDccout else connDccin]
  oper := some oper

end DccConn

/-- The handlers of `ucommand_table`. -/
inductive Ucommand where
  | boot | chat | connect | events | help | quit | rehash | service | status
  | stats
  /-- A command of a service. -/
  | own
  deriving DecidableEq, Repr

structure UcommandHandler where
  cmd : CString
  func : Ucommand
  flags : Word := 0#32
  sflags : Word := 0#32
  minpara : Nat := 0
  deriving DecidableEq, Repr

/-- The table `ucommands` and `stats_ucommand`. -/
def ucommands : List UcommandHandler :=
  [{ cmd := "boot".toList, func := .boot
     flags := .ofBits [confOperAdmin], minpara := 1 },
    { cmd := "chat".toList, func := .chat },
    { cmd := "connect".toList, func := .connect
      flags := .ofBits [confOperRoute], minpara := 1 },
    { cmd := "events".toList, func := .events
      flags := .ofBits [confOperAdmin] },
    { cmd := "help".toList, func := .help },
    { cmd := "quit".toList, func := .quit },
    { cmd := "rehash".toList, func := .rehash
      flags := .ofBits [confOperAdmin] },
    { cmd := "service".toList, func := .service },
    { cmd := "status".toList, func := .status },
    { cmd := "stats".toList, func := .stats }]

structure DaemonEnv extends Env where
  findConfServer : CString → Bool
  /-- The commands of the services, the last one added first. -/
  ownUcommands : List UcommandHandler
  runUcommand : CString → List CString → List ServiceAct

def DaemonEnv.quiet : DaemonEnv where
  toEnv := .quiet
  findConfServer := fun _ => false
  ownUcommands := []
  runUcommand := fun _ _ => []

def DaemonEnv.findUcommand (env : DaemonEnv) (command : CString) :
    Option UcommandHandler :=
  (env.ownUcommands ++ ucommands).find? fun handler =>
    strcasecmp command handler.cmd

def UcommandHandler.allows (handler : UcommandHandler) (conn : DccConn) :
    Bool :=
  (handler.flags == 0#32 || conn.privs &&& handler.flags != 0#32) &&
    (handler.sflags == 0#32 || conn.sprivs &&& handler.sflags != 0#32)

/-- The checks of `handle_ucommand` for a connection that is logged in. -/
def DaemonEnv.permits (env : DaemonEnv) (conn : DccConn) (command : CString)
    (parv : List CString) : Option UcommandHandler :=
  match env.findUcommand command with
  | none => none
  | some handler =>
      if parv.length < handler.minpara then none
      else if handler.allows conn then some handler
      else none

/-- A line from an operator, and the connections whose writes fail while it is
handled. -/
structure DccLine where
  text : CString
  fails : List ConnId := []
  deriving DecidableEq, Repr

inductive DccInput where
  | partyline
  | blank
  | command (command : CString) (parv : List CString)

/-- `parse_client` up to the call of `handle_ucommand`. -/
def DaemonEnv.parseClient (env : DaemonEnv) (buf : CString) : DccInput :=
  match State.lineText buf with
  | '.' :: rest =>
      if rest.isEmpty then .blank
      else
        match cut ' ' rest with
        | (command, none) => .command command []
        | (command, some rest) =>
            .command command (env.stringToArray (rest.dropWhile (· == ' ')))
  | _ => .partyline

structure Dcc where
  conn : Heap DccConn
  connectionList : List ConnId

abbrev ConfFile := List (ClientId × State.ServiceSetting) × Int

namespace Dcc

def empty : Dcc where
  conn := .empty
  connectionList := []

def modify (target : ConnId) (change : DccConn → DccConn) (d : Dcc) : Dcc :=
  { d with conn := d.conn.modify target change }

/-- `sendto_one`. -/
def sendtoOne (fails : List ConnId) (target : ConnId) (d : Dcc) : Dcc :=
  d.modify target fun conn =>
    if conn.dead then conn else conn.write (decide (target ∈ fails))

/-- `sendto_all`. -/
def sendtoAll (fails : List ConnId) (d : Dcc) : Dcc :=
  d.connectionList.foldl (fun d target => d.modify target fun conn =>
    if conn.auth then conn.write (decide (target ∈ fails)) else conn) d

/-- `sendto_all_chat`. -/
def sendtoAllChat (fails : List ConnId) (one : ConnId) (d : Dcc) : Dcc :=
  d.connectionList.foldl (fun d target => d.modify target fun conn =>
    if conn.auth && conn.chat && decide (target ≠ one) then
      conn.write (decide (target ∈ fails))
    else conn) d

/-- `signoff_client`. -/
def signoffClient (target : ConnId) (d : Dcc) : Dcc :=
  d.modify target fun conn => if conn.dead then conn else conn.giveUp

/-- `u_login`. -/
def uLogin (env : DaemonEnv) (fails : List ConnId) (target : ConnId)
    (conn : DccConn) (parv : List CString) (d : Dcc) : Dcc :=
  if lacks parv 2 1 then d.sendtoOne fails target
  else
    match conn.oper with
    | none => d
    | some oper =>
        if oper.accepts env.crypt (parv.getD 1 []) then
          (d.modify target (DccConn.login oper)).sendtoOne fails target
        else d.sendtoOne fails target

/-- `u_chat`. -/
def uChat (fails : List ConnId) (target : ConnId) (parv : List CString)
    (d : Dcc) : Dcc :=
  if lacks parv 1 0 then d.sendtoOne fails target
  else if strcasecmp (parv.getD 0 []) "on".toList then
    (d.modify target (·.setFlag connFlagsChat)).sendtoOne fails target
  else if strcasecmp (parv.getD 0 []) "off".toList then
    (d.modify target (·.clearFlag connFlagsChat)).sendtoOne fails target
  else d.sendtoOne fails target

def isNamed (name : CString) (d : Dcc) (target : ConnId) : Bool :=
  match d.conn.cell target with
  | some conn => irccmp conn.name name
  | none => false

def bootConn (fails : List ConnId) (name : CString) (d : Dcc)
    (target : ConnId) : Dcc :=
  if d.isNamed name target then
    (d.sendtoOne fails target).signoffClient target
  else d

/-- `u_boot` on `connection_list`. -/
def uBoot (fails : List ConnId) (target : ConnId) (name : CString)
    (d : Dcc) : Dcc :=
  (d.connectionList.foldl (bootConn fails name) d).sendtoOne fails target

/-- `u_quit`. -/
def uQuit (fails : List ConnId) (target : ConnId) (d : Dcc) : Dcc :=
  (d.sendtoOne fails target).signoffClient target

/-- `u_connect`, with what it asks of the network. -/
def uConnect (env : DaemonEnv) (fails : List ConnId) (target : ConnId)
    (parv : List CString) (live : Bool) (d : Dcc) : Dcc × List Event :=
  if !env.findConfServer (parv.getD 0 []) then
    (d.sendtoOne fails target, [])
  else if decide (1 < parv.length) && decide (atoi (parv.getD 1 []) ≤ 0) then
    (d.sendtoOne fails target, [])
  else if live then (d.sendtoAll fails, [.reroute])
  else (d, [])

/-- `u_rehash`. -/
def uRehash (conf : ConfFile) (fails : List ConnId) (parv : List CString)
    (d : Dcc) : Dcc × List Event :=
  if decide (0 < parv.length) && irccmp (parv.getD 0 []) "help".toList then
    (d.sendtoAll fails, [])
  else (d.sendtoAll fails, [.rehash conf.1 conf.2])

def execUcommand (env : DaemonEnv) (now : Int) (conf : ConfFile)
    (fails : List ConnId) (target : ConnId) (live : Bool)
    (handler : UcommandHandler) (parv : List CString) (d : Dcc) :
    Dcc × List Event :=
  match handler.func with
  | .boot =>
      (d.uBoot fails target (parv.getD 0 []), [.boot (parv.getD 0 [])])
  | .chat => (d.uChat fails target parv, [])
  | .connect => d.uConnect env fails target parv live
  | .quit => (d.uQuit fails target, [])
  | .rehash => d.uRehash conf fails parv
  | .own =>
      (d.sendtoOne fails target,
        (env.runUcommand handler.cmd parv).map (.service now))
  | .events => (d.sendtoOne fails target, [])
  | .help => (d.sendtoOne fails target, [])
  | .service => (d.sendtoOne fails target, [])
  | .status => (d.sendtoOne fails target, [])
  | .stats => (d.sendtoOne fails target, [])

/-- `handle_ucommand`. -/
def handleUcommand (env : DaemonEnv) (now : Int) (conf : ConfFile)
    (fails : List ConnId) (target : ConnId) (live : Bool) (conn : DccConn)
    (command : CString) (parv : List CString) (d : Dcc) :
    Dcc × List Event :=
  if !conn.auth then
    if strcasecmp command "login".toList then
      (d.uLogin env fails target conn parv, [])
    else (d.sendtoOne fails target, [])
  else
    match env.permits conn command parv with
    | none => (d.sendtoOne fails target, [])
    | some handler =>
        d.execUcommand env now conf fails target live handler parv

/-- `parse_client` on a line of the connection. -/
def handleLine (env : DaemonEnv) (now : Int) (conf : ConfFile)
    (target : ConnId) (live : Bool) (conn : DccConn) (line : DccLine)
    (d : Dcc) : Dcc × List Event :=
  match env.parseClient line.text with
  | .partyline =>
      if conn.auth && conn.chat then (d.sendtoAllChat line.fails target, [])
      else (d.sendtoOne line.fails target, [])
  | .blank => (d, [])
  | .command command parv =>
      d.handleUcommand env now conf line.fails target live conn command parv

/-- `cleanup_exited_clients` on one connection. -/
def freeDead (d : Dcc) (target : ConnId) : Dcc :=
  match d.conn.cell target with
  | none => d
  | some conn =>
      if conn.dead then
        { conn := d.conn.free target
          connectionList := d.connectionList.erase target }
      else d

end Dcc

structure Daemon where
  net : State
  dcc : Dcc

inductive DaemonEvent where
  | net (event : Event)
  /-- A direct connection is asked for, or offered. -/
  | opened (oper : ConfOper) (outwards : Bool)
  | signon (target : ConnId) (fails : Bool)
  | openFailed (target : ConnId)
  /-- Data from an operator, while the configuration file has these blocks. -/
  | read (now : Int) (conf : ConfFile) (target : ConnId)
      (finish : State.ReadEnd) (lines : List DccLine)
  | writeError (target : ConnId)
  | cleanup

namespace Daemon

/-- One turn of the loop of `read_client`. -/
def readTurn (env : DaemonEnv) (now : Int) (conf : ConfFile)
    (target : ConnId) (d : Daemon) (line : DccLine) : Except Stop Daemon :=
  match d.dcc.conn.cell target with
  | none => .ok d
  | some conn =>
      if conn.isDead then .ok d
      else do
        let handled :=
          d.dcc.handleLine env now conf target (!d.net.offline) conn line
        let net ← run (State.step env.toEnv) d.net handled.2
        .ok { net := net, dcc := handled.1 }

/-- `read_any` on a direct connection. -/
def readAny (target : ConnId) (finish : State.ReadEnd) (d : Daemon) :
    Daemon :=
  match finish with
  | .again => d
  | .error => { d with dcc := d.dcc.signoffClient target }
  | .eof => { d with dcc := d.dcc.signoffClient target }

def isReading (target : ConnId) (d : Daemon) : Bool :=
  match d.dcc.conn.cell target with
  | some conn => conn.reading
  | none => false

/-- `connect_callback` or the accept of this connection is still to come. -/
def isAwaiting (target : ConnId) (d : Daemon) : Bool :=
  match d.dcc.conn.cell target with
  | some conn => conn.awaits
  | none => false

def onDcc (change : Dcc → Dcc) (d : Daemon) : Daemon :=
  { d with dcc := change d.dcc }

def step (env : DaemonEnv) (d : Daemon) : DaemonEvent → Except Stop Daemon
  | .net event => do
      let net ← d.net.step env.toEnv event
      .ok { d with net := net }
  | .opened oper outwards =>
      .ok (d.onDcc fun dcc =>
        { conn := dcc.conn.alloc (.fresh oper outwards)
          connectionList := Dlink.add dcc.conn.next dcc.connectionList })
  | .signon target fails =>
      .ok (if d.isAwaiting target then
        d.onDcc (·.modify target (DccConn.signOn fails))
      else d)
  | .openFailed target =>
      .ok (if d.isAwaiting target then d.onDcc (·.signoffClient target)
      else d)
  | .read now conf target finish lines =>
      if d.isReading target then
        run (readTurn env now conf target) (d.readAny target finish) lines
      else .ok d
  | .writeError target =>
      .ok (d.onDcc (·.modify target (·.setFlag connDead)))
  | .cleanup =>
      .ok (d.onDcc fun dcc => dcc.connectionList.foldl Dcc.freeDead dcc)

def start (blocks : List ServiceBlock) (pingTime : Int) : Daemon where
  net := .start blocks pingTime
  dcc := .empty

def NetRuns (env : DaemonEnv) (d e : Daemon) : Prop :=
  ∃ events, run (State.step env.toEnv) d.net events = .ok e.net

namespace NetRuns

variable {env : DaemonEnv} {c d e : Daemon}

theorem of_eq (same : e.net = d.net) : NetRuns env d e :=
  ⟨[], congrArg Except.ok same.symm⟩

theorem trans (first : NetRuns env c d) (second : NetRuns env d e) :
    NetRuns env c e := by
  obtain ⟨earlier, left⟩ := first
  obtain ⟨later, right⟩ := second
  exact ⟨earlier ++ later, run_append_eq_ok.mpr ⟨d.net, left, right⟩⟩

end NetRuns

theorem readTurn_netRuns {env : DaemonEnv} {now : Int} {conf : ConfFile}
    {target : ConnId} {d e : Daemon} {line : DccLine}
    (turned : readTurn env now conf target d line = .ok e) :
    NetRuns env d e := by
  unfold readTurn at turned
  split at turned
  · cases turned
    exact .of_eq rfl
  · split at turned
    · cases turned
      exact .of_eq rfl
    · obtain ⟨net, ran, turned⟩ := Except.bind_eq_ok.mp turned
      cases turned
      exact ⟨_, ran⟩

theorem readAny_net {target : ConnId} {finish : State.ReadEnd} {d : Daemon} :
    (d.readAny target finish).net = d.net := by
  cases finish <;> rfl

theorem step_netRuns {env : DaemonEnv} {d e : Daemon} {event : DaemonEvent}
    (stepped : d.step env event = .ok e) : NetRuns env d e := by
  cases event with
  | net event =>
      obtain ⟨net, first, same⟩ := Except.bind_eq_ok.mp stepped
      cases same
      exact ⟨[event], run_cons_eq_ok.mpr ⟨net, first, rfl⟩⟩
  | opened oper outwards =>
      cases stepped
      exact .of_eq rfl
  | signon target fails =>
      cases stepped
      refine .of_eq ?_
      split <;> rfl
  | openFailed target =>
      cases stepped
      refine .of_eq ?_
      split <;> rfl
  | read now conf target finish lines =>
      unfold step at stepped
      dsimp only at stepped
      split at stepped
      · refine run_preserves (NetRuns env d)
          (fun _ _ _ before turned => before.trans (readTurn_netRuns turned))
          ?_ stepped
        exact .of_eq readAny_net
      · cases stepped
        exact .of_eq rfl
  | writeError target =>
      cases stepped
      exact .of_eq rfl
  | cleanup =>
      cases stepped
      exact .of_eq rfl

/-- What holds of the network in every run of its events holds of it in every
run of the daemon. -/
theorem net_of_run {env : DaemonEnv} {blocks : List ServiceBlock}
    {pingTime : Int} {events : List DaemonEvent} {d : Daemon}
    (reached : run (step env) (start blocks pingTime) events = .ok d) :
    ∃ netEvents, run (State.step env.toEnv) (.start blocks pingTime)
      netEvents = .ok d.net :=
  run_preserves (NetRuns env (start blocks pingTime))
    (fun _ _ _ before stepped => before.trans (step_netRuns stepped))
    (.of_eq rfl) reached

end Daemon

end RatboxServices
