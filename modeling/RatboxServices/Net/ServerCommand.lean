import RatboxServices.Net.ChannelCommand

namespace RatboxServices

open CString

/-! The handlers of `scommand.c`, `c_message.c` and `c_error.c`, and the entry
of the services' own commands. What a handler only sends is left out, except
for the pointers it follows to build the text. -/

namespace State

/-- `c_admin`. -/
def cAdmin (clientP : ClientId) (parv : List CString) (s : State) :
    Except Stop State := do
  if lacks parv 1 0 then .ok s
  else if !s.clients.isUser clientP then .ok s
  else
    let _ ← s.clients.deref clientP
    .ok s

def capabFlag (name : CString) : Option Nat :=
  if irccmp "SERVICES".toList name then some connCapService
  else if irccmp "RSFNC".toList name then some connCapRsfnc
  else if irccmp "TB".toList name then some connCapTb
  else none

/-- `c_capab`. -/
def cCapab (clientP : Option ClientId) (parv : List CString) (s : State) :
    Except Stop State := do
  if parv.length < 1 then .ok s
  else if clientP.isSome then .ok s
  else
    let data ← param parv 0
    let _ ← s.uplink
    .ok (s.onLink fun conn =>
      (data.splitOn ' ').foldl (fun conn name =>
        match capabFlag name with
        | some bit => conn.setFlag bit
        | none => conn) conn)

/-- The SID of a `PASS` whose TS version is at least six. -/
def passSid (parv : List CString) : Option CString :=
  match parv[2]?, parv[3]? with
  | some version, some sid =>
      if 6 ≤ atoi version && !sid.isEmpty && validSid sid then some sid
      else none
  | _, _ => none

/-- `c_pass`. The flag `CONN_TS` is set before the version and the SID are
looked at. -/
def cPass (env : Env) (clientP : Option ClientId) (parv : List CString)
    (s : State) : Except Stop State := do
  if parv.length < 2 then .ok s
  else if clientP.isSome then .ok s
  else
    let conn ← s.uplink
    if conn.pass ≠ (← param parv 0) then s.signoffServer env
    else if !strcasecmp (← param parv 1) ['T', 'S'] then s.signoffServer env
    else
      let s := s.onLink (·.setFlag connTs)
      match passSid parv with
      | some sid =>
          .ok (s.onLink fun conn =>
            { conn with sid := some sid, passed := true })
      | none => s.signoffServer env

/-- `c_ping`. -/
def cPing (clientP : ClientId) (parv : List CString) (s : State) :
    Except Stop State := do
  if lacks parv 1 0 then .ok s
  else
    let _ ← s.clients.deref clientP
    .ok s

/-- `h_jupeserv_finburst`: every server under an active jupe is exited. -/
def finburst (env : Env) (s : State) : Except Stop State :=
  env.activeJupes.foldlM (fun s name =>
    match s.clients.findServer name with
    | none => .ok s
    | some target => s.exit env target) s

/-- The first `PONG` after our burst ends it. -/
def finishBurst (env : Env) (s : State) : Except Stop State :=
  if s.finishedBursting then .ok s
  else (s.onLink (·.setFlag connFlagsEob)).finburst env

/-- `c_pong`. -/
def cPong (env : Env) (clientP : ClientId) (parv : List CString)
    (s : State) : Except Stop State := do
  if lacks parv 1 0 || !s.clients.isServer clientP then .ok s
  else
    let _ ← s.uplink
    let s ← s.finishBurst env
    .ok (s.modifyClient clientP (·.setFlag flagsEob))

/-- `c_trace`. -/
def cTrace (clientP : ClientId) (parv : List CString) (s : State) :
    Except Stop State := do
  if lacks parv 1 0 then .ok s
  else if !s.clients.isUser clientP then .ok s
  else
    let _ ← s.clients.deref clientP
    s.clients.serviceList.forM fun serviceP => do
      let _ ← s.clients.serviceOf serviceP
    let _ ← s.uplink
    .ok s

/-- `c_version`, and `c_time` with the same checks. -/
def cVersion (clientP : ClientId) (parv : List CString) (s : State) :
    Except Stop State := do
  if lacks parv 1 0 then .ok s
  else
    let _ ← s.clients.deref clientP
    .ok s

/-- What the reply of `c_whois` follows of a target that was found. -/
def whoisReply (s : State) : Option ClientId → Except Stop Unit
  | none => .ok ()
  | some target =>
      if s.clients.isUser target then do
        let client ← s.clients.deref target
        let _ ← s.clients.userOf target
        let uplink ← nonNull client.uplink
        let _ ← s.clients.deref uplink
        .ok ()
      else if s.clients.isService target then do
        let _ ← s.clients.serviceOf target
        .ok ()
      else .ok ()

/-- `c_whois`. The end of the list is sent with the name of the target. -/
def cWhois (clientP : ClientId) (parv : List CString) (s : State) :
    Except Stop State := do
  if lacks parv 2 1 then .ok s
  else if !s.clients.isUser clientP then .ok s
  else
    let found := s.clients.findClient (← param parv 1)
    let _ ← s.whoisReply found
    let target ← nonNull found
    let _ ← s.clients.deref target
    .ok s

/-- What `STATS v` follows: the name of our uplink. -/
def statsServers (statchar : CString) (s : State) : Except Stop Unit :=
  if firstIs (fun c => c == 'v' || c == 'V') statchar then do
    let _ ← s.uplink
    .ok ()
  else .ok ()

/-- `c_stats`. -/
def cStats (clientP : ClientId) (parv : List CString) (s : State) :
    Except Stop State := do
  if lacks parv 1 0 then .ok s
  else if !s.clients.isUser clientP then .ok s
  else
    let _ ← s.statsServers (← param parv 0)
    let _ ← s.clients.userOf clientP
    .ok s

/-- `c_error`. -/
def cError (env : Env) (parv : List CString) (s : State) :
    Except Stop State := do
  if lacks parv 1 0 then .ok s
  else
    let _ ← s.uplink
    let _ ← param parv 0
    s.signoffServer env

end State

/-- The password given to `OLOGIN` is that of the operator block. -/
def ConfOper.accepts (crypt : CString → CString → CString)
    (oper : ConfOper) (given : CString) : Bool :=
  (if oper.flags.getLsbD confOperEncrypted then crypt given oper.pass
    else given) == oper.pass

def CommandEntry.allows (entry : CommandEntry) (user : User) : Bool :=
  (!entry.operonly || user.umode.has clientOper) &&
    (entry.operflags == 0#64 ||
      match user.oper with
      | some oper => (oper.sflags &&& entry.operflags) != 0#64
      | none => false)

namespace State

/-- `parse_full_mode` as a service calls it. -/
def issuedCall (s : State) (serviceP : ClientId) (chptr : ChannelId)
    (allowSslonly : Bool) : FullModeCall where
  chptr := chptr
  sourceP := some serviceP
  allowSslonly := allowSslonly
  findService := s.clients.findService
  findUser := fun nick => s.clients.findUser nick true

def execService (env : Env) (now : Int) (s : State) :
    ServiceAct → Except Stop State
  | .chan act => .ok (s.onChans fun chans => act.exec now chans)
  | .issueMode serviceP chptr allowSslonly parv =>
      .ok (s.onChans fun chans =>
        (parseFullMode (s.issuedCall serviceP chptr allowSslonly) parv
          chans).1)
  | .exit name =>
      match s.clients.findClient name with
      | none => .ok s
      | some target => s.exit env target

def flood (serviceP clientP : ClientId) (user service : Int) (s : State) :
    State :=
  (s.modifyClient clientP (·.onUser fun u =>
    { u with floodCount := u.floodCount + user })).modifyClient serviceP
      (·.onService fun sv => { sv with flood := sv.flood + service })

def floodReset (now : Int) (clientP : ClientId) (expired : Bool)
    (s : State) : State :=
  if expired then
    s.modifyClient clientP (·.onUser fun u =>
      { u with floodTime := now, floodCount := 0 })
  else s

def floodCount (user : User) (expired : Bool) : Int :=
  if expired then 0 else user.floodCount

/-- The flood limits of `handle_service`: the state, and whether the command
is looked at. -/
def floodLimit (env : Env) (now : Int) (serviceP clientP : ClientId)
    (user : User) (service : Service) (command : CString) (s : State) :
    State × Bool :=
  if user.oper.isSome then (s, true)
  else if env.findIgnore user &&
      (!strcasecmp command "OLOGIN".toList ||
        (env.findConfOper user none).isNone) then (s, false)
  else
    let expired := decide (user.floodTime + env.clientFloodTime < now)
    let s := s.floodReset now clientP expired
    let count := floodCount user expired
    if env.clientFloodMaxIgnore < count then
      (s.flood serviceP clientP 1 0, false)
    else if (service.floodMax ≠ 0 && decide (service.floodMax < service.flood))
        || decide (env.clientFloodMax < count) then
      (s.flood serviceP clientP 1 0, false)
    else (s, true)

/-- `OLOGIN`. -/
def operLogin (env : Env) (serviceP clientP : ClientId) (user : User)
    (parv : List CString) (s : State) : Except Stop State := do
  if user.oper.isSome then .ok s
  else if parv.length < 2 then .ok (s.flood serviceP clientP 1 0)
  else
    match env.findConfOper user (some (← param parv 0)) with
    | none => .ok (s.flood serviceP clientP 1 0)
    | some oper =>
        let given ← param parv 1
        if !oper.accepts env.crypt given then .ok s
        else
          .ok (s.modifyClient clientP (·.onUser fun u =>
            { u with oper := some oper }))

/-- `handle_service`, once the flood limits are passed. -/
def serviceCommand (env : Env) (now : Int) (serviceP clientP : ClientId)
    (user : User) (service : Service) (command : CString)
    (parv : List CString) (msg : Bool) (s : State) : Except Stop State := do
  let isOper := user.umode.has clientOper
  let stealth :=
    service.flags.has serviceStealth && user.oper.isNone && !isOper
  if msg && service.flags.has serviceShortcut then
    .ok (if stealth then s else s.flood serviceP clientP 1 1)
  else if strcasecmp command "HELP".toList then
    if stealth then .ok s
    else if service.flags.has serviceLoginhelp && user.userReg.isNone &&
        user.oper.isNone && !isOper then .ok s
    else
      let penalty := env.helpPenalty serviceP clientP parv
      .ok (s.flood serviceP clientP 2 (2 + penalty))
  else if strcasecmp command "OPERLOGIN".toList ||
      strcasecmp command "OLOGIN".toList then
    s.operLogin env serviceP clientP user parv
  else if strcasecmp command "OPERLOGOUT".toList ||
      strcasecmp command "OLOGOUT".toList then
    .ok (if user.oper.isNone then s.flood serviceP clientP 1 0
      else s.modifyClient clientP (·.onUser fun u => { u with oper := none }))
  else if stealth then .ok s
  else
    match env.findCommand serviceP command with
    | none => .ok (s.flood serviceP clientP 1 1)
    | some entry =>
        if !entry.allows user ||
            (entry.userreg && user.userReg.isNone) ||
            decide (parv.length < entry.minparc) then
          .ok (s.flood serviceP clientP 1 1)
        else
          let (acts, retval) := env.runCommand s serviceP clientP command parv
          let s ← acts.foldlM (execService env now) s
          .ok (s.flood serviceP clientP retval retval)

/-- `handle_service`. -/
def handleService (env : Env) (now : Int) (serviceP clientP : ClientId)
    (command : CString) (parv : List CString) (msg : Bool) (s : State) :
    Except Stop State := do
  let service ← s.clients.serviceOf serviceP
  if !service.hasCommands then .ok s
  else
    let user ← s.clients.userOf clientP
    let (s, pass) :=
      s.floodLimit env now serviceP clientP user service command
    if !pass then .ok s
    else s.serviceCommand env now serviceP clientP user service command parv msg

/-- `handle_service_msg`. -/
def handleServiceMsg (env : Env) (now : Int) (serviceP clientP : ClientId)
    (text : CString) (s : State) : Except Stop State :=
  if !s.clients.isUser clientP then .ok s
  else
    match cut ' ' text with
    | (command, none) =>
        s.handleService env now serviceP clientP command [] true
    | (command, some rest) =>
        s.handleService env now serviceP clientP command
          (env.stringToArray rest) true

/-- `strncasecmp(text, start, length of start) == 0`. -/
def startsWith (start text : CString) : Bool :=
  strcasecmp (text.take start.length) start

/-- The six characters of the `CHAT` request that are compared. -/
def ctcpChat : CString :=
  Char.ofNat 1 :: "CHAT".toList ++ [Char.ofNat 1]

def ctcpDccChat : CString :=
  Char.ofNat 1 :: "DCC CHAT ".toList

def isChat (text : CString) : Bool :=
  startsWith ctcpChat text || startsWith ctcpDccChat text

/-- The service a message is addressed to, by user name before an `@`. -/
def messageTarget (s : State) (target : CString) : Option ClientId :=
  match cut '@' target with
  | (username, some _) =>
      s.clients.serviceList.find? fun serviceP =>
        match s.clients.client.cell serviceP with
        | some client =>
            match client.part with
            | .service service =>
                !client.disabled && irccmp username service.username
            | _ => false
        | none => false
  | (name, none) => s.clients.findService name

/-- `c_message`. The direct connections it opens are no part of this state. -/
def cMessage (env : Env) (now : Int) (clientP : ClientId)
    (parv : List CString) (s : State) : Except Stop State := do
  if lacks parv 2 1 then .ok s
  else
    match s.messageTarget (← param parv 0) with
    | none => .ok s
    | some target =>
        let text ← param parv 1
        if firstIs (· == Char.ofNat 1) text then
          if !isChat text then .ok s
          else
            let _ ← s.clients.userOf clientP
            .ok s
        else s.handleServiceMsg env now target clientP text

/-- `c_encap`. -/
def cEncap (env : Env) (now : Int) (clientP : ClientId)
    (parv : List CString) (s : State) : Except Stop State := do
  if parv.length < 2 then .ok s
  else if !env.maskMatch (← param parv 0) env.myName then .ok s
  else
    let subcommand ← param parv 1
    if irccmp subcommand "LOGIN".toList then
      if (← emptyParam parv 2) || !s.clients.isUser clientP then .ok s
      else
        let login := env.burstLogin s clientP (← param parv 2)
        .ok (match login with
          | none => s
          | some _ => s.modifyClient clientP (·.onUser fun user =>
              { user with userReg := login }))
    else if irccmp subcommand "GCAP".toList then
      if (← emptyParam parv 2) || !s.clients.isServer clientP then .ok s
      else
        let caps ← param parv 2
        .ok (match strstr "RSFNC".toList caps with
          | none => s
          | some hit =>
              match hit.drop 5 with
              | [] => s.modifyClient clientP (·.setFlag flagsRsfnc)
              | c :: _ =>
                  if c == ' ' then
                    s.modifyClient clientP (·.setFlag flagsRsfnc)
                  else s)
    else if irccmp subcommand "RSMSG".toList then
      if parv.length < 4 || !s.clients.isUser clientP then .ok s
      else
        match s.clients.findService (← param parv 2) with
        | none => .ok s
        | some serviceP =>
            let command ← param parv 3
            s.handleService env now serviceP clientP command (parv.drop 4)
              false
    else .ok s

end State

end RatboxServices
