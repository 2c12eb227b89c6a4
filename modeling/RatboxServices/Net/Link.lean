import RatboxServices.Net.ServerCommand

namespace RatboxServices

open CString

/-! The dispatch of server commands and the uplink connection of `io.c`. -/

/-- The commands of the `scommand_handler` tables. -/
inductive Command where
  | admin | capab | encap | pass | ping | pong | stats | trace | version
  | time | whois | error | mode | tmode | bmask | privmsg | join | kick
  | part | sjoin | tb | topic | kill | nick | uid | quit | server | sid
  | squit
  deriving DecidableEq, Repr

namespace Command

def all : List Command :=
  [admin, capab, encap, pass, ping, pong, stats, trace, version, time, whois,
    error, mode, tmode, bmask, privmsg, join, kick, part, sjoin, tb, topic,
    kill, nick, uid, quit, server, sid, squit]

def cmd : Command → CString
  | admin => ['A', 'D', 'M', 'I', 'N']
  | capab => ['C', 'A', 'P', 'A', 'B']
  | encap => ['E', 'N', 'C', 'A', 'P']
  | pass => ['P', 'A', 'S', 'S']
  | ping => ['P', 'I', 'N', 'G']
  | pong => ['P', 'O', 'N', 'G']
  | stats => ['S', 'T', 'A', 'T', 'S']
  | trace => ['T', 'R', 'A', 'C', 'E']
  | version => ['V', 'E', 'R', 'S', 'I', 'O', 'N']
  | time => ['T', 'I', 'M', 'E']
  | whois => ['W', 'H', 'O', 'I', 'S']
  | error => ['E', 'R', 'R', 'O', 'R']
  | mode => ['M', 'O', 'D', 'E']
  | tmode => ['T', 'M', 'O', 'D', 'E']
  | bmask => ['B', 'M', 'A', 'S', 'K']
  | privmsg => ['P', 'R', 'I', 'V', 'M', 'S', 'G']
  | join => ['J', 'O', 'I', 'N']
  | kick => ['K', 'I', 'C', 'K']
  | part => ['P', 'A', 'R', 'T']
  | sjoin => ['S', 'J', 'O', 'I', 'N']
  | tb => ['T', 'B']
  | topic => ['T', 'O', 'P', 'I', 'C']
  | kill => ['K', 'I', 'L', 'L']
  | nick => ['N', 'I', 'C', 'K']
  | uid => ['U', 'I', 'D']
  | quit => ['Q', 'U', 'I', 'T']
  | server => ['S', 'E', 'R', 'V', 'E', 'R']
  | sid => ['S', 'I', 'D']
  | squit => ['S', 'Q', 'U', 'I', 'T']

/-- The entry of `scommand_table` for a command word. -/
def find (word : CString) : Option Command :=
  all.find? fun command => strcasecmp word command.cmd

end Command

namespace State

/-- `handle_scommand_unknown`: the handlers with `FLAGS_UNKNOWN`. -/
def handleScommandUnknown (env : Env) (now : Int) (command : Command)
    (parv : List CString) (s : State) : Except Stop State :=
  match command with
  | .capab => s.cCapab none parv
  | .pass => s.cPass env none parv
  | .error => s.cError env parv
  | .server => s.cServer env now none parv
  | _ => .ok s

/-- `handle_scommand_client`. No service hooks a server command. -/
def handleScommandClient (env : Env) (now : Int) (clientP : ClientId)
    (command : Command) (parv : List CString) (s : State) :
    Except Stop State :=
  match command with
  | .admin => s.cAdmin clientP parv
  | .capab => s.cCapab (some clientP) parv
  | .encap => s.cEncap env now clientP parv
  | .pass => s.cPass env (some clientP) parv
  | .ping => s.cPing clientP parv
  | .pong => s.cPong env clientP parv
  | .stats => s.cStats clientP parv
  | .trace => s.cTrace clientP parv
  | .version => s.cVersion clientP parv
  | .time => s.cVersion clientP parv
  | .whois => s.cWhois clientP parv
  | .error => s.cError env parv
  | .mode => s.cMode env now clientP parv
  | .tmode => s.cTmode env now clientP parv
  | .bmask => s.cBmask env parv
  | .privmsg => s.cMessage env now clientP parv
  | .join => s.cJoin env now clientP parv
  | .kick => s.cKick parv
  | .part => s.cPart clientP parv
  | .sjoin => s.cSjoin env now clientP parv
  | .tb => s.cTb env now clientP parv
  | .topic => s.cTopic env now clientP parv
  | .kill => s.cKill env now clientP parv
  | .nick => s.cNick env clientP parv
  | .uid => s.cUid env clientP parv
  | .quit => s.cQuit env clientP
  | .server => s.cServer env now (some clientP) parv
  | .sid => s.cSid clientP parv
  | .squit => s.cSquit env parv

/-- `handle_scommand`. -/
def handleScommand (env : Env) (now : Int) (source command : CString)
    (parv : List CString) (s : State) : Except Stop State := do
  let conn ← s.uplink
  match Command.find command with
  | none => .ok s
  | some command =>
      match s.clients.findClient source with
      | some clientP => s.handleScommandClient env now clientP command parv
      | none =>
          if conn.clientP.isNone then
            s.handleScommandUnknown env now command parv
          else .ok s

structure Line where
  source : CString
  command : CString
  parv : List CString
  deriving DecidableEq, Repr

def bufSize : Nat := 512

def lineText (buf : CString) : CString :=
  let buf := if bufSize < buf.length then buf.take (bufSize - 1) else buf
  let buf := (cut '\r' (cut '\n' buf).1).1
  buf.dropWhile (· == ' ')

/-- `parse_server` up to the call of `handle_scommand`. -/
def parseLine (env : Env) (uplinkName buf : CString) : Option Line :=
  let text := lineText buf
  let (source, text) :=
    match text with
    | ':' :: rest =>
        match cut ' ' rest with
        | (source, some rest) => (source, rest.dropWhile (· == ' '))
        -- without a space the source is read again as the command
        | (source, none) => (source, source)
    | _ => (uplinkName, text)
  if text.isEmpty then none
  else
    match cut ' ' text with
    | (command, none) => some ⟨source, command, []⟩
    | (command, some rest) =>
        some ⟨source, command, env.stringToArray (rest.dropWhile (· == ' '))⟩

/-- `parse_server`. -/
def parseServer (env : Env) (now : Int) (buf : CString) (s : State) :
    Except Stop State := do
  let conn ← s.uplink
  match parseLine env conn.name buf with
  | none => .ok s
  | some line => s.handleScommand env now line.source line.command line.parv

/-- How `read_any` leaves its loop. -/
inductive ReadEnd where
  | again
  | error
  | eof
  deriving DecidableEq, Repr

def noteData (now : Int) (received : Bool) (s : State) : State :=
  if received then s.onLink fun conn => { conn with lastData := some now }
  else s

/-- `read_any` on the uplink. It only leaves by `return`, so the assignment to
`last_time` after the loop is never reached. -/
def readAny (env : Env) (now : Int) (received : Bool) (finish : ReadEnd)
    (s : State) : Except Stop State :=
  let s := s.noteData now received
  match finish with
  | .again => .ok s
  | .error => s.signoffServer env
  | .eof => s.signoffServer env

/-- One turn of the loop of `read_server`. -/
def readLine (env : Env) (now : Int) (s : State) (buf : CString) :
    Except Stop State := do
  let conn ← s.uplink
  if conn.isDead then .ok s else s.parseServer env now buf

/-- A line from the uplink, and whether a write to it fails while the line is
handled. -/
structure Incoming where
  text : CString
  writeFails : Bool := false
  deriving DecidableEq, Repr

/-- `send_queued` on an error of the socket. -/
def writeError (s : State) : State :=
  s.onLink (·.setFlag connDead)

def readTurn (env : Env) (now : Int) (s : State) (line : Incoming) :
    Except Stop State := do
  let s ← readLine env now s line.text
  .ok (if line.writeFails then s.writeError else s)

/-- `read_server`, on the lines that are complete after the read. -/
def readServer (env : Env) (now : Int) (received : Bool)
    (finish : ReadEnd) (lines : List Incoming) (s : State) :
    Except Stop State := do
  let s ← s.readAny env now received finish
  let conn ← s.uplink
  if conn.isDead then .ok s
  else run (readTurn env now) (s.onLink (·.clearFlag connSentping)) lines

/-- `connect_to_server`, when its event fires. The server block is the one
`next_autoconn` picks; without one the daemon dies. -/
def connectToServer (now : Int) (conf : Option (CString × CString))
    (s : State) : Except Stop State :=
  let s := { s with connectEvents := s.connectEvents - 1 }
  match s.serverP with
  | some _ => .ok s
  | none =>
      match conf with
      | none => .error .die
      | some (name, pass) =>
          .ok { s with serverP := some (.fresh name pass now) }

/-- `signon_server`, up to its call of `read_server`. -/
def signonServer (writeFails : Bool) (s : State) : State :=
  s.onLink (Lconn.signOn writeFails)

def uplinkExited (s : State) (conn : Lconn) : Bool :=
  match conn.clientP with
  | none => false
  | some target =>
      match s.clients.client.cell target with
      | some client => client.isDead
      | none => false

def exitUplink (env : Env) (conn : Lconn) (s : State) : Except Stop State :=
  match conn.clientP with
  | none => .ok s
  | some target => if s.uplinkExited conn then .ok s else s.exit env target

def dropServer (env : Env) (conn : Lconn) (s : State) : Except Stop State := do
  let s ← s.exitUplink env conn
  .ok { s with serverP := none }

def connectTimedOut (now : Int) (conn : Lconn) : Bool :=
  conn.flags.has connConnecting && decide (conn.firstTime + 30 ≤ now)

def handshakeTimedOut (now : Int) (conn : Lconn) : Bool :=
  conn.flags.has connHandshake && decide (conn.firstTime + 60 ≤ now)

def pingTimedOut (now pingTime : Int) (conn : Lconn) : Bool :=
  conn.flags.has connSentping && decide (conn.lastTime + pingTime * 2 ≤ now)

def pingDue (now pingTime : Int) (conn : Lconn) : Bool :=
  !conn.flags.has connSentping && decide (conn.lastTime + pingTime ≤ now)

/-- `check_server_status`. -/
def checkServerStatus (env : Env) (now : Int) (s : State) :
    Except Stop State :=
  match s.serverP with
  | none => .ok s
  | some conn =>
      if conn.dead then s.dropServer env conn
      else if s.uplinkExited conn then s.signoffServer env
      else if connectTimedOut now conn then s.signoffServer env
      else if handshakeTimedOut now conn then s.signoffServer env
      else if pingTimedOut now s.pingTime conn then s.signoffServer env
      else if pingDue now s.pingTime conn then
        .ok (s.onLink (·.setFlag connSentping))
      else .ok s

inductive ServiceSetting where
  | nick (data : CString)
  | username (data : CString)
  | host (data : CString)
  | realname (data : CString)
  | flags (data : Word)
  | floodMax (data : Int)
  deriving DecidableEq, Repr

def markReintroduce (serviceP : ClientId) (s : State) : State :=
  if s.sentBurst then
    s.modifyClient serviceP (·.setStatus serviceReintroduce)
  else s

/-- `conf_set_service_nick`. -/
def confSetServiceNick (env : Env) (serviceP : ClientId) (client : Client)
    (data : CString) (s : State) : State :=
  let rename (s : State) : State :=
    s.modifyClient serviceP fun client =>
      { client with name := strlcpy (hostLen + 1) data }
  if client.name = data then s
  else if s.sentBurst then
    let s := s.onClients (Clients.delClient env.wild serviceP)
    let s := (rename s).onClients (Clients.addClient serviceP)
    s.modifyClient serviceP (·.setStatus serviceReintroduce)
  else rename s

def confSetService (env : Env) (s : State)
    (setting : ClientId × ServiceSetting) : State :=
  match s.clients.client.cell setting.1 with
  | none => s
  | some client =>
      match client.part, setting.2 with
      | .service _, .nick data =>
          s.confSetServiceNick env setting.1 client data
      | .service service, .username data =>
          if service.username = data then s
          else
            (s.modifyClient setting.1 (·.onService fun service =>
              { service with username := strlcpy (userLen + 1) data })
              ).markReintroduce setting.1
      | .service service, .host data =>
          if service.host = data then s
          else
            (s.modifyClient setting.1 (·.onService fun service =>
              { service with host := strlcpy (hostLen + 1) data })
              ).markReintroduce setting.1
      | .service _, .realname data =>
          if client.info = data then s
          else
            (s.modifyClient setting.1 fun client =>
              { client with info := strlcpy (realLen + 1) data }
              ).markReintroduce setting.1
      | .service _, .flags data =>
          s.modifyClient setting.1 (·.onService fun service =>
            { service with flags := data })
      | .service _, .floodMax data =>
          s.modifyClient setting.1 (·.onService fun service =>
            { service with floodMax := data })
      | _, _ => s

/-- `conf_parse` brings the services in line once our burst was sent. -/
def reloadServices (env : Env) (s : State) : State :=
  if s.sentBurst then
    s.onClients fun clients =>
      clients.serviceList.foldl (Clients.reloadService env.wild) clients
  else s

/-- `validate_conf` repairs the ping time. -/
def validPingTime (pingTime : Int) : Int :=
  if pingTime ≤ 0 then 300 else pingTime

/-- `rehash`: the service blocks of the file are applied first. -/
def rehash (env : Env) (settings : List (ClientId × ServiceSetting))
    (pingTime : Int) (s : State) : State :=
  let s := settings.foldl (confSetService env) s
  { s with pingTime := validPingTime pingTime }.reloadServices env

end State

end RatboxServices
