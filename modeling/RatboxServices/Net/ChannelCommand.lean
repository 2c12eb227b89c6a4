import RatboxServices.Net.ClientCommand

namespace RatboxServices

open CString

/-! The handlers of `channel.c` and `c_mode.c`. -/

namespace State

/-- `c_kick`. A kicked service rejoins, which only sends. -/
def cKick (parv : List CString) (s : State) : Except Stop State := do
  if lacks parv 2 1 then .ok s
  else
    match s.chans.findChannel (← param parv 0) with
    | none => .ok s
    | some chptr =>
        let nick ← param parv 1
        match s.clients.findService nick with
        | some _ => .ok s
        | none =>
            match s.clients.findUser nick true with
            | none => .ok s
            | some target =>
                match s.chans.findChmember chptr target with
                | none => .ok s
                | some mptr => .ok (s.onChans (·.delChmember mptr))

/-- `c_part`. -/
def cPart (clientP : ClientId) (parv : List CString) (s : State) :
    Except Stop State := do
  if lacks parv 1 0 then .ok s
  else if !s.clients.isUser clientP then .ok s
  else
    match s.chans.findChannel (← param parv 0) with
    | none => .ok s
    | some chptr =>
        match s.chans.findChmember chptr clientP with
        | none => .ok s
        | some mptr => .ok (s.onChans (·.delChmember mptr))

def topicHook (env : Env) (now : Int) (chptr : ChannelId) (s : State) :
    State :=
  s.onChans (ChanAct.execAll now (env.hooks.channelTopic s chptr))

def nickUserHostLen (env : Env) : Nat :=
  env.nickLen + userLen + hostLen + 2

/-- `c_topic`. -/
def cTopic (env : Env) (now : Int) (clientP : ClientId)
    (parv : List CString) (s : State) : Except Stop State := do
  if parv.length < 2 then .ok s
  else
    match s.chans.findChannel (← param parv 0) with
    | none => .ok s
    | some chptr =>
        let topic ← param parv 1
        let client ← s.clients.deref clientP
        let s :=
          if topic.isEmpty then
            s.onChans (·.modifyChannel chptr fun ch =>
              { ch with topic := [], topicwho := [], topicTsinfo := 0 })
          else
            let who :=
              match client.part with
              | .user user => userMask client.name user.username user.host
              | _ => client.name
            s.onChans (·.modifyChannel chptr fun ch =>
              { ch with
                topic := strlcpy (env.topicLen + 1) topic
                topicwho := strlcpy (nickUserHostLen env + 1) who
                topicTsinfo := now })
        .ok (s.topicHook env now chptr)

/-- The topic of a `TB` and who set it. -/
def tbTopic (client : Client) (parv : List CString) :
    Except Stop (CString × CString) :=
  if parv.length = 4 then do .ok (← param parv 3, ← param parv 2)
  else do .ok (← param parv 2, client.name)

/-- `c_tb`. -/
def cTb (env : Env) (now : Int) (clientP : ClientId)
    (parv : List CString) (s : State) : Except Stop State := do
  if parv.length < 3 || !s.clients.isServer clientP then .ok s
  else
    match s.chans.findChannel (← param parv 0) with
    | none => .ok s
    | some chptr =>
        let topicts := atol (← param parv 1)
        let ch := s.chans.channel.get chptr
        if !ch.topic.isEmpty && decide (ch.topicTsinfo < topicts) then .ok s
        else
          let client ← s.clients.deref clientP
          let (topic, who) ← tbTopic client parv
          if topic.isEmpty then .ok s
          else
            let s := s.onChans (·.modifyChannel chptr fun ch =>
              { ch with
                topic := strlcpy (env.topicLen + 1) topic
                topicwho := strlcpy (nickUserHostLen env + 1) who
                topicTsinfo := now })
            .ok (s.topicHook env now chptr)

/-- The nicks of an `SJOIN`: leading spaces are dropped and the token ends at
the next space, until the string is empty. -/
def nickTokens : Nat → CString → List CString
  | 0, _ => []
  | fuel + 1, s =>
      if s.isEmpty then []
      else
        match cut ' ' (s.dropWhile (· == ' ')) with
        | (token, none) => [token]
        | (token, some rest) => token :: nickTokens fuel rest

/-- The `@` and `+` before a nick, in either order. -/
def nickPrefix : CString → Bool × Bool × CString
  | '@' :: '+' :: nick => (true, true, nick)
  | '@' :: nick => (true, false, nick)
  | '+' :: '@' :: nick => (true, true, nick)
  | '+' :: nick => (false, true, nick)
  | nick => (false, false, nick)

def memberFlags (keepNewModes opped voiced : Bool) : Word :=
  if keepNewModes then
    Word.ofBits ((if opped then [modeOpped] else []) ++
      (if voiced then [modeVoiced] else []))
  else if opped then Word.ofBits [modeDeopped]
  else 0#32

/-- One nick of an `SJOIN`, with the members joined so far. -/
def sjoinNick (findUser : CString → Option ClientId) (chptr : ChannelId)
    (keepNewModes : Bool) (state : Chans × List MemberId)
    (token : CString) : Chans × List MemberId :=
  let (opped, voiced, nick) := nickPrefix token
  match findUser nick with
  | none => state
  | some target =>
      match state.1.findChmember chptr target with
      | some _ => state
      | none =>
          let (chans, mptr) := state.1.addChmember chptr target
            (memberFlags keepNewModes opped voiced)
          (chans, Dlink.add mptr state.2)

/-- The channel an `SJOIN` or `JOIN` names, created if it is not there, with
the new TS and whether the old modes are kept. -/
def joinChannel (chname : CString) (newts : Int) (s : Chans) :
    Chans × ChannelId × Bool :=
  match s.findChannel chname with
  | none =>
      let (s, chptr) := s.createChannel chname newts {}
      (s, chptr, false)
  | some chptr =>
      let ch := s.channel.get chptr
      if newts = 0 || ch.tsinfo = 0 then
        (s.modifyChannel chptr fun ch => { ch with tsinfo := 0 }, chptr, true)
      else (s, chptr, !decide (newts < ch.tsinfo))

/-- `keep_new_modes` of `c_sjoin`. -/
def keepNewModes (chname : CString) (newts : Int) (s : Chans) : Bool :=
  match s.findChannel chname with
  | none => true
  | some chptr =>
      let ch := s.channel.get chptr
      newts = 0 || ch.tsinfo = 0 || newts < ch.tsinfo ||
        !decide (ch.tsinfo < newts)

def dropOldModes (chptr : ChannelId) (newts : Int) (removeBans : Bool)
    (s : Chans) : Chans :=
  let s := s.modifyChannel chptr fun ch => { ch with tsinfo := newts }
  let s := s.removeOurSimpleModes chptr
  let s := s.removeOurOvModes chptr
  if removeBans then s.removeOurBans chptr true true true else s

def mergeMode (newmode : Chmode) (mode : Chmode) : Chmode where
  mode := mode.mode ||| newmode.mode
  limit :=
    if mode.limit = 0 || mode.limit < newmode.limit then newmode.limit
    else mode.limit
  key :=
    if mode.key.isEmpty || decide (newmode.key < mode.key) then newmode.key
    else mode.key

def applyOldModes (chptr : ChannelId) (keepOld : Bool) (newts : Int)
    (removeBans : Bool) (s : State) : State :=
  if keepOld then s else s.onChans (dropOldModes chptr newts removeBans)

def applyNewModes (chptr : ChannelId) (keepNew : Bool) (newmode : Chmode)
    (s : State) : State :=
  if keepNew then
    s.onChans (·.modifyChannel chptr fun ch =>
      { ch with mode := mergeMode newmode ch.mode })
  else s

def lowertsHook (env : Env) (chptr : ChannelId) (keepOld : Bool)
    (s : State) : State :=
  if keepOld then s
  else
    match env.hooks.sjoinLowerts s chptr with
    | none => s
    | some emode =>
        s.onChans (·.modifyChannel chptr fun ch =>
          { ch with
            mode := .enforceLowerts (!s.sentBurst && !ch.services.isEmpty)
              emode ch.mode })

def joinHook (env : Env) (now : Int) (chptr : ChannelId)
    (joined : List MemberId) (s : State) : State :=
  s.onChans (ChanAct.execAll now (env.hooks.channelJoin s chptr joined))

def isFree (s : Chans) (chptr : ChannelId) : Bool :=
  match s.channel.cell chptr with
  | some ch => ch.users.isEmpty && ch.services.isEmpty
  | none => false

/-- The nick list of an `SJOIN`, after which a channel that stayed empty goes
again. -/
def sjoinNicks (env : Env) (now : Int) (chptr : ChannelId) (keepNew : Bool)
    (nicks : CString) (s : State) : State :=
  let (chans, joined) :=
    (nickTokens (nicks.length + 1) nicks).foldl
      (sjoinNick (fun nick => s.clients.findUser nick true) chptr keepNew)
      (s.chans, [])
  let s := { s with chans := chans }
  if isFree s.chans chptr then s.onChans (·.freeChannel chptr)
  else s.joinHook env now chptr joined

/-- The parameters of an `SJOIN` after its modes. -/
def sjoinRest (env : Env) (now : Int) (chptr : ChannelId) (keepNew : Bool)
    (args : List CString) (s : State) : State :=
  if emptyHead args then s
  else s.sjoinNicks env now chptr keepNew (args.headD [])

/-- `c_sjoin` once the modes are read, with the parameters that are left. -/
def sjoinModes (env : Env) (now : Int) (chptr : ChannelId)
    (keepOld keepNew removeBans : Bool) (newts : Int) (newmode : Chmode)
    (args : List CString) (s : State) : State :=
  let s := s.applyOldModes chptr keepOld newts removeBans
  let s := s.applyNewModes chptr keepNew newmode
  let s := s.lowertsHook env chptr keepOld
  s.sjoinRest env now chptr keepNew args

/-- The modes of an `SJOIN` and the parameters after them; a mode of `0` is
sent for a remote join with a higher TS. -/
def sjoinParse (modes : CString) (parv : List CString) :
    Option (Chmode × List CString) :=
  if modes == ['0'] then some ({}, parv.drop 3)
  else parseSimpleMode {} (parv.drop 2) true

/-- `c_sjoin`. -/
def cSjoin (env : Env) (now : Int) (clientP : ClientId)
    (parv : List CString) (s : State) : Except Stop State := do
  if lacks parv 4 3 then .ok s
  else
    let chname ← param parv 1
    if !Chans.validChname chname then .ok s
    else
      let newts := atol (← param parv 0)
      let keepNew := keepNewModes chname newts s.chans
      let (chans, chptr, keepOld) := joinChannel chname newts s.chans
      let s := { s with chans := chans }
      let client ← s.clients.deref clientP
      let modes ← param parv 2
      match sjoinParse modes parv with
      | none => .ok s
      | some (newmode, args) =>
          .ok (s.sjoinModes env now chptr keepOld keepNew
            (!client.uid.isEmpty) newts newmode args)

/-- `JOIN 0`. -/
def joinZero (clientP : ClientId) (s : State) : State :=
  s.onChans fun chans =>
    (chans.userChannels clientP).foldl (fun chans mptr =>
      chans.delChmember mptr) chans

/-- The source of a `JOIN` is added to the channel. -/
def joinSource (env : Env) (now : Int) (chptr clientP : ClientId)
    (s : State) : State :=
  match s.chans.findChmember chptr clientP with
  | some _ => s.joinHook env now chptr []
  | none =>
      let (chans, mptr) := s.chans.addChmember chptr clientP 0#32
      { s with chans := chans }.joinHook env now chptr [mptr]

/-- `c_join` once the modes are read. -/
def joinMember (env : Env) (now : Int) (chptr clientP : ClientId)
    (keepOld : Bool) (newts : Int) (s : State) : State :=
  let s := s.applyOldModes chptr keepOld newts false
  let s := s.lowertsHook env chptr keepOld
  s.joinSource env now chptr clientP

/-- `c_join`. -/
def cJoin (env : Env) (now : Int) (clientP : ClientId)
    (parv : List CString) (s : State) : Except Stop State := do
  if (← emptyParam parv 0) then .ok s
  else if !s.clients.isUser clientP then .ok s
  else if parv.length = 1 && firstIs (· == '0') (← param parv 0) then
    .ok (s.joinZero clientP)
  else if parv.length < 3 then .ok s
  else
    let chname ← param parv 1
    if !Chans.validChname chname then .ok s
    else
      let newts := atol (← param parv 0)
      let (chans, chptr, keepOld) := joinChannel chname newts s.chans
      let s := { s with chans := chans }
      match parseSimpleMode {} (parv.drop 2) true with
      | none => .ok s
      | some _ => .ok (s.joinMember env now chptr clientP keepOld newts)

def callHook (now : Int) (called : Bool) (acts : List ChanAct) (s : State) :
    State :=
  if called then s.onChans (ChanAct.execAll now acts) else s

/-- `handle_chmode`. A deopped service is rejoined, which only sends. -/
def handleChmode (env : Env) (now : Int) (chptr : ChannelId)
    (sourceP : ClientId) (parv : List CString) (s : State) : State :=
  let oldmode := (s.chans.channel.get chptr).mode
  let call : FullModeCall :=
    { chptr := chptr
      sourceP := none
      allowSslonly := true
      findService := s.clients.findService
      findUser := fun nick => s.clients.findUser nick true }
  let s := s.onChans fun chans => (parseFullMode call parv chans).1
  let opped := s.chans.oppedList
  let s := s.callHook now (!opped.isEmpty) (env.hooks.modeOp s chptr opped)
  let voiced := s.chans.voicedList
  let s :=
    s.callHook now (!voiced.isEmpty) (env.hooks.modeVoice s chptr voiced)
  let mode := (s.chans.channel.get chptr).mode
  let s := s.callHook now
    (oldmode.mode ≠ mode.mode || oldmode.limit ≠ mode.limit ||
      !strcasecmp oldmode.key mode.key)
    (env.hooks.modeSimple s chptr)
  let bans := s.chans.banList
  let s := s.callHook now (s.clients.isUser sourceP && !bans.isEmpty)
    (env.hooks.modeBan s chptr bans)
  s.onChans fun chans =>
    { chans with
      oppedList := []
      voicedList := []
      banList := []
      deoppedList := [] }

def isDeopped (chptr : ChannelId) (clientP : ClientId) (s : State) : Bool :=
  match s.chans.findChmember chptr clientP with
  | some mptr => (s.chans.member.get mptr).flags.has modeDeopped
  | none => false

/-- `c_mode`. -/
def cMode (env : Env) (now : Int) (clientP : ClientId)
    (parv : List CString) (s : State) : Except Stop State := do
  if lacks parv 1 0 then .ok s
  else
    let name ← param parv 0
    if lacks parv 2 1 then .ok s
    else if !firstIs isChanPrefix name then
      match s.clients.findUser name true with
      | none => .ok s
      | some target =>
          if target ≠ clientP then .ok s
          else
            let modes ← param parv 1
            .ok (s.modifyClient target (·.onUser fun user =>
              { user with umode := stringToUmode modes user.umode }))
    else
      match s.chans.findChannel name with
      | none => .ok s
      | some chptr =>
          if s.clients.isUser clientP && s.isDeopped chptr clientP then .ok s
          else .ok (s.handleChmode env now chptr clientP (parv.drop 1))

/-- `c_tmode`. -/
def cTmode (env : Env) (now : Int) (clientP : ClientId)
    (parv : List CString) (s : State) : Except Stop State := do
  if lacks parv 3 2 then .ok s
  else
    match s.chans.findChannel (← param parv 1) with
    | none => .ok s
    | some chptr =>
        if (s.chans.channel.get chptr).tsinfo < atol (← param parv 0) then
          .ok s
        else .ok (s.handleChmode env now chptr clientP (parv.drop 2))

/-- `valid_ban`. -/
def validBan (nickLen : Nat) (banstr : CString) : Bool :=
  banstr.all isBanChar &&
    match cut '!' banstr with
    | (_, none) => false
    | (nick, some rest) =>
        match cut '@' rest with
        | (_, none) => false
        | (user, some host) =>
            !nick.isEmpty && !user.isEmpty && !host.isEmpty &&
              decide (nick.length ≤ nickLen) &&
              decide (user.length ≤ userLen) &&
              decide (host.length ≤ hostLen)

/-- The masks of a `BMASK`: words between spaces. -/
def banMasks (source : CString) : List CString :=
  (source.splitOn ' ').filter fun mask => !mask.isEmpty

def addBans (nickLen : Nat) (masks list : List CString) : List CString :=
  masks.foldl (fun list mask =>
    if !firstIs (· == ':') mask && validBan nickLen mask then
      (addBan mask list).getD list
    else list) list

/-- `c_bmask`, which does not look at `parc`. -/
def cBmask (env : Env) (parv : List CString) (s : State) :
    Except Stop State := do
  match s.chans.findChannel (← param parv 1) with
  | none => .ok s
  | some chptr =>
      if (s.chans.channel.get chptr).tsinfo < atol (← param parv 0) then .ok s
      else
        let onList (change : (List CString → List CString) →
            Channel → Channel) : Except Stop State := do
          let masks := banMasks (← param parv 3)
          .ok (s.onChans (·.modifyChannel chptr
            (change (addBans env.nickLen masks))))
        match (← param parv 2) with
        | 'b' :: _ =>
            onList fun add ch => { ch with bans := add ch.bans }
        | 'e' :: _ =>
            onList fun add ch => { ch with excepts := add ch.excepts }
        | 'I' :: _ =>
            onList fun add ch => { ch with invites := add ch.invites }
        | _ => .ok s

end State

end RatboxServices
