import RatboxServices.Net.Exit

namespace RatboxServices

open CString

/-! The handlers of `client.c`. -/

/-- `string_to_umode`. -/
def stringToUmode (p : CString) (currentUmode : Word) : Word :=
  (p.foldl (fun (state : Word × Bool) c =>
    let put (bit : Nat) : Word × Bool :=
      (if state.2 then state.1.set bit else state.1.clear bit, state.2)
    match c with
    | '+' => (state.1, true)
    | '-' => (state.1, false)
    | 'a' => put clientAdmin
    | 'i' => put clientInvis
    | 'o' => put clientOper
    | _ => state) (currentUmode, true)).1

/-- `nick!user@host`. -/
def userMask (name username host : CString) : CString :=
  name ++ '!' :: username ++ '@' :: host

def clientIp (ip : CString) : Option CString :=
  match ip with
  | first :: _ :: _ => if first != '0' then some ip else none
  | _ => none

/-- `server_p->sid`, copied from. -/
def Lconn.sidOf (conn : Lconn) : Except Stop CString :=
  match conn.sid with
  | some sid => .ok sid
  | none => .error (.fault .nullSid)

def defaultGecos : CString := "(Unknown Location)".toList

namespace State

def allocClient (client : Client) (s : State) : State :=
  s.onClients fun clients =>
    { clients with client := clients.client.alloc client }

/-- A new user is put in the tables and in `user_list`. -/
def addUser (user : Client) (s : State) : State :=
  let target := s.clients.client.next
  let s := (s.allocClient user).onClients (Clients.addClient target)
  s.onClients fun clients =>
    { clients with userList := Dlink.add target clients.userList }

def linkUser (uplinkP : ClientId) (user : Client) (s : State) :
    Except Stop State := do
  let target := s.clients.client.next
  let s := s.addUser user
  let _ ← s.clients.serverOf uplinkP
  .ok (s.modifyClient uplinkP (·.onServer fun server =>
    { server with users := Dlink.add target server.users }))

/-- What `NICK` and `UID` do with a client that has the nick already: whether
the new user is to be introduced. -/
def collideNick (env : Env) (newts : Int) (found : Option ClientId)
    (s : State) : Except Stop (State × Bool) :=
  match found with
  | none => .ok (s, true)
  | some target => do
      let client ← s.clients.deref target
      match client.part with
      | .server _ => .ok (s, false)
      | .user user =>
          if user.tsinfo < newts then .ok (s, false)
          else
            let s ← s.exit env target
            .ok (s, true)
      | .service _ =>
          if newts ≤ 1 then .error .die else .ok (s, false)

/-- `c_nick` with eight parameters: a user without a uid is introduced. -/
def introduceNick (env : Env) (parv : List CString) (s : State) :
    Except Stop State := do
  let nick ← param parv 0
  let found := s.clients.findNamedClient nick
  let newts := atol (← param parv 2)
  match s.clients.findServer (← param parv 6) with
  | none => .ok s
  | some uplinkP =>
      if env.nickLen < nick.length then .error .die
      else
        let (s, introduce) ← s.collideNick env newts found
        if !introduce then .ok s
        else
          let server ← s.clients.deref uplinkP
          let name := strlcpy (hostLen + 1) nick
          let username := strlcpy (userLen + 1) (← param parv 4)
          let host := strlcpy (hostLen + 1) (← param parv 5)
          s.linkUser uplinkP
            { name := name
              info := strlcpy (realLen + 1) (← param parv 7)
              uplink := some uplinkP
              part := .user
                { username := username
                  host := host
                  servername := server.name
                  tsinfo := newts
                  umode := stringToUmode (← param parv 3) 0#32
                  mask := userMask name username host } }

/-- `c_nick` with two parameters: a user changes its nick. -/
def changeNick (env : Env) (clientP : ClientId) (parv : List CString)
    (s : State) : Except Stop State := do
  if !s.clients.isUser clientP then .ok s
  else
    let nick ← param parv 0
    if env.nickLen < nick.length then .error .die
    else
      let tsinfo := atol (← param parv 1)
      let name := strlcpy (hostLen + 1) nick
      let s := s.onClients (Clients.delClient env.wild clientP)
      let s := s.modifyClient clientP fun client => { client with name := name }
      let s := s.onClients (Clients.addClient clientP)
      .ok (s.modifyClient clientP (·.onUser fun user =>
        { user with
          mask := userMask name user.username user.host
          tsinfo := tsinfo }))

/-- `c_nick`. -/
def cNick (env : Env) (clientP : ClientId) (parv : List CString)
    (s : State) : Except Stop State :=
  if parv.length = 8 then s.introduceNick env parv
  else if parv.length = 2 then s.changeNick env clientP parv
  else .ok s

/-- `c_uid`. -/
def cUid (env : Env) (clientP : ClientId) (parv : List CString)
    (s : State) : Except Stop State := do
  if parv.length ≠ 9 then .ok s
  else
    let nick ← param parv 0
    let newts := atol (← param parv 2)
    if env.nickLen < nick.length then .error .die
    else
      let (s, introduce) ← s.collideNick env newts (s.clients.findClient nick)
      if !introduce then .ok s
      else
        let source ← s.clients.deref clientP
        let name := strlcpy (hostLen + 1) nick
        let username := strlcpy (userLen + 1) (← param parv 4)
        let host := strlcpy (hostLen + 1) (← param parv 5)
        let ip := clientIp (← param parv 6)
        let flags : Word :=
          if (ip.map (·.take 39)) == some (host.take 39) then
            Word.ofBits [flagsNodns]
          else 0#32
        s.linkUser clientP
          { name := name
            info := strlcpy (realLen + 1) (← param parv 8)
            uid := strlcpy (uidLen + 1) (← param parv 7)
            flags := flags
            uplink := some clientP
            part := .user
              { username := username
                host := host
                ip := ip
                servername := source.name
                tsinfo := newts
                umode := stringToUmode (← param parv 3) 0#32
                mask := userMask name username host } }

/-- `c_quit`. -/
def cQuit (env : Env) (clientP : ClientId) (s : State) :
    Except Stop State :=
  if !s.clients.isUser clientP then .ok s else s.exit env clientP

def countKill (now : Int) (s : State) : Except Stop State :=
  if s.firstKill + 20 < now then
    .ok { s with firstKill := now, numKill := 2 }
  else if 20 < s.numKill then .error .die
  else .ok { s with numKill := s.numKill + 1 }

def logKill (clientP : ClientId) (s : State) : Except Stop Unit :=
  if s.clients.isUser clientP then do
    let _ ← s.clients.userOf clientP
    .ok ()
  else .ok ()

def killService (env : Env) (now : Int) (clientP target : ClientId)
    (s : State) : Except Stop State := do
  let _ ← s.logKill clientP
  let s ← s.countKill now
  let s := s.onClients (Clients.delClient env.wild target)
  .ok (s.onClients (Clients.introduceService target))

/-- `c_kill`. -/
def cKill (env : Env) (now : Int) (clientP : ClientId)
    (parv : List CString) (s : State) : Except Stop State := do
  if lacks parv 1 0 then .ok s
  else
    match s.clients.findClient (← param parv 0) with
    | none => .ok s
    | some target =>
        if s.clients.isServer target then .ok s
        else if s.clients.isService target then
          s.killService env now clientP target
        else s.exit env target

/-- A new server is linked in the tables and in `server_list`. -/
def linkServer (target : ClientId) (s : State) : State :=
  let s := s.onClients (Clients.addClient target)
  s.onClients fun clients =>
    { clients with serverList := Dlink.add target clients.serverList }

/-- The new server behind `c_server` and `c_sid` on a source that is its
uplink. -/
def linkLeaf (clientP : ClientId) (server : Client) (s : State) :
    Except Stop State := do
  let target := s.clients.client.next
  let s := s.allocClient server
  let _ ← s.clients.serverOf clientP
  let s := s.modifyClient clientP (·.onServer fun server =>
    { server with servers := Dlink.add target server.servers })
  .ok (s.linkServer target)

def serverInfo (gecos : CString) : CString :=
  strlcpy (realLen + 1) (if gecos.isEmpty then defaultGecos else gecos)

def acceptUplink (now : Int) (client : Client) (s : State) : State :=
  let target := s.clients.client.next
  let s := s.onLink (Lconn.introduce now target)
  let s := (s.allocClient client).linkServer target
  let s := s.onClients Clients.introduceServices
  s.onLink (·.setFlag connFlagsSentburst)

/-- `c_server` from our uplink, which is not introduced yet. -/
def cServerUplink (env : Env) (now : Int) (parv : List CString)
    (s : State) : Except Stop State := do
  let conn ← s.uplink
  let name ← param parv 0
  if !conn.flags.has connTs then s.signoffServer env
  else if !irccmp conn.name name then s.signoffServer env
  else
    let info := serverInfo (← param parv 2)
    let sid ← conn.sidOf
    let hops := atoi (← param parv 1)
    .ok (s.acceptUplink now
      { name := strlcpy (hostLen + 1) name
        info := info
        uid := strlcpy (uidLen + 1) sid
        flags := if conn.flags.has connCapRsfnc then
            Word.ofBits [flagsRsfnc]
          else 0#32
        part := .server { hops := hops } })

/-- `c_server`; `NULL` is a source that is not known. -/
def cServer (env : Env) (now : Int) (clientP : Option ClientId)
    (parv : List CString) (s : State) : Except Stop State := do
  if parv.length < 3 then .ok s
  else
    let name ← param parv 0
    if hostLen < name.length then .error .die
    else
      match clientP with
      | none => s.cServerUplink env now parv
      | some source =>
          let s ← s.linkLeaf source
            { name := strlcpy (hostLen + 1) name
              info := serverInfo (← param parv 2)
              uplink := some source
              part := .server { hops := atoi (← param parv 1) } }
          .ok (s.onLink (·.setFlag connFlagsSentburst))

/-- `c_sid`. -/
def cSid (clientP : ClientId) (parv : List CString) (s : State) :
    Except Stop State := do
  if parv.length < 4 then .ok s
  else
    let name ← param parv 0
    if hostLen < name.length then .error .die
    else
      s.linkLeaf clientP
        { name := strlcpy (hostLen + 1) name
          info := serverInfo (← param parv 3)
          uid := strlcpy (uidLen + 1) (← param parv 2)
          uplink := some clientP
          part := .server { hops := atoi (← param parv 1) } }

/-- `c_squit`. Without a server name it takes our uplink. -/
def cSquit (env : Env) (parv : List CString) (s : State) :
    Except Stop State := do
  if lacks parv 1 0 then
    let conn ← s.uplink
    let target ← nonNull conn.clientP
    s.exit env target
  else
    match s.clients.findServer (← param parv 0) with
    | none => .ok s
    | some target => s.exit env target

end State

end RatboxServices
