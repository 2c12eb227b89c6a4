import RatboxServices.Serv.Ignore

namespace RatboxServices

open CString

/-! The bans of `s_banserv.c` that are in table `operbans`. A ban that is taken
off stays there for a while, so that servers that were away hear of it. -/

inductive OperBanType
  | kline
  | xline
  | resv
  deriving DecidableEq, Repr

namespace OperBanType

def letter : OperBanType → Char
  | .kline => 'K'
  | .xline => 'X'
  | .resv => 'R'

def command : OperBanType → CString
  | .kline => "KLINE".toList
  | .xline => "XLINE".toList
  | .resv => "RESV".toList

end OperBanType

/-- A row of table `operbans`. -/
structure OperBan where
  type : OperBanType
  mask : CString
  reason : CString
  hold : Int
  createTime : Int
  oper : CString
  remove : Bool
  deriving DecidableEq, Repr

/-- What the bans read of the configuration. Negative numbers are not taken
over from the file. -/
structure BanServConf where
  unbanTime : Nat
  tempWorkaround : Bool
  maxKlineMatches : Nat
  maxXlineMatches : Nat
  nickLen : Nat

/-- `set_default_conf`. -/
def BanServConf.default : BanServConf where
  unbanTime := 1209600
  tempWorkaround := false
  maxKlineMatches := 200
  maxXlineMatches := 200
  nickLen := 10

/-- `OPER_NAME` and what the oper may do. -/
structure BanServOper where
  name : CString
  banPerm : Bool
  banRemove : Bool
  banNomax : Bool

/-- A user of `user_list`. -/
structure BannedUser where
  username : CString
  host : CString
  info : CString

structure BanServCall where
  now : Int
  oper : BanServOper
  userList : List BannedUser
  parv : List CString

inductive BanLine
  | ban (target : CString) (type : OperBanType) (hold : Int)
      (mask reason : CString)
  | unban (target : CString) (type : OperBanType) (mask : CString)
  deriving DecidableEq, Repr

inductive BanServReply
  | needMoreParams (command : CString)
  | alreadyPlaced (command mask : CString)
  | noPermAccess (command : CString)
  | invalid (command mask : CString)
  | tooManyMatches (mask : CString) (matched limit : Nat)
  | issued (command mask : CString)
  | notPlaced (command mask : CString)
  | noAccess (command : CString)
  deriving DecidableEq, Repr

def BanServReply.isIssued : BanServReply → Bool
  | .issued _ _ => true
  | _ => false

structure BanServResult where
  operbans : List OperBan
  reply : BanServReply
  sent : List BanLine
  deriving DecidableEq, Repr

namespace OperBan

def userLen : Nat := 10

def hostLen : Nat := 63

def reasonLen : Nat := 50

def channelLen : Nat := 200

/-- The most minutes `get_temp_time` returns. -/
def maxMinutes : Int := 60 * 24 * 7 * 52

/-- A `time_t`. -/
def wrap (value : Int) : Int :=
  value.bmod 18446744073709551616

/-- The loop of `get_temp_time`, where `none` is its `return 0`. -/
def tempMinutes (result : Int) : CString → Option Int
  | [] => some result
  | c :: duration =>
      if isDigit c then
        tempMinutes (wrap (wrap (result * 10) + (c.toNat % 16))) duration
      else if result = 0 ∨ duration ≠ [] then none
      else if c = 'h' ∨ c = 'H' then some (wrap (result * 60))
      else if c = 'd' ∨ c = 'D' then some (wrap (result * 1440))
      else if c = 'w' ∨ c = 'W' then some (wrap (result * 10080))
      else none

/-- `get_temp_time`. -/
def getTempTime (duration : CString) : Int :=
  match tempMinutes 0 duration with
  | none => 0
  | some result =>
      if maxMinutes < result ∨ result < 0 then maxMinutes * 60
      else result * 60

/-- `lcase`. -/
def lcase (text : CString) : CString :=
  (text.take 511).map toLower

/-- `split_ban`. -/
def splitBan (mask : CString) : Option (CString × CString) :=
  match cut '@' (strlcpy State.bufSize mask) with
  | (_, none) => none
  | (user, some host) =>
      if user = [] ∨ host = [] then none
      else if userLen < user.length ∨ hostLen < host.length then none
      else some (user, host)

/-- `expire_operbans`. -/
def expireOperbans (now : Int) (operbans : List OperBan) : List OperBan :=
  operbans.filter fun row => !(row.hold != 0 && decide (row.hold ≤ now))

/-- `type=… AND mask=…`. -/
def isFor (type : OperBanType) (mask : CString) (row : OperBan) : Bool :=
  row.type == type && row.mask == lcase mask

/-- `find_ban` behind the expiry: 1 is a ban, -1 one that is taken off. -/
def findBan (type : OperBanType) (mask : CString) (operbans : List OperBan) :
    Int :=
  match operbans.find? (isFor type mask) with
  | none => 0
  | some row => if row.remove then -1 else 1

/-- `find_ban_remove` behind the expiry: the oper of a ban. -/
def findBanRemove (type : OperBanType) (mask : CString)
    (operbans : List OperBan) : Option CString :=
  match operbans.find? (isFor type mask) with
  | none => none
  | some row =>
      if row.remove then none else some (strlcpy State.bufSize row.oper)

def sendable : OperBanType → CString → Bool
  | .kline, mask => (splitBan mask).isSome
  | _, _ => true

/-- `push_unban`. -/
def pushUnban (target : CString) (type : OperBanType) (mask : CString) :
    List BanLine :=
  if sendable type mask then [.unban target type mask] else []

/-- `push_ban`. -/
def pushBan (conf : BanServConf) (target : CString) (type : OperBanType)
    (mask reason : CString) (hold : Int) : List BanLine :=
  (if conf.tempWorkaround && hold != 0 then pushUnban target type mask
    else []) ++
    if sendable type mask then [.ban target type hold mask reason] else []

/-- How the three commands that ban differ: the masks they refuse, and the users
they count. -/
structure BanKind where
  type : OperBanType
  refuses : CString → Bool
  maxMatches : Nat
  isMatch : CString → BannedUser → Bool

/-- `temptime`. -/
def tempTimeOf (call : BanServCall) : Int :=
  getTempTime (call.parv.getD 0 [])

/-- `para` behind the time. -/
def paraOf (call : BanServCall) : Nat :=
  if tempTimeOf call ≠ 0 then 1 else 0

/-- `parv[para]`. -/
def maskOf (call : BanServCall) : CString :=
  call.parv.getD (paraOf call) []

def reasonOf (call : BanServCall) : CString :=
  strlcpy (reasonLen + 1) (rebuildParams call.parv (paraOf call + 1))

def holdOf (call : BanServCall) : Int :=
  if tempTimeOf call ≠ 0 then call.now + tempTimeOf call else 0

/-- The `UPDATE` or the `INSERT`, by what was found. -/
def writeBan (type : OperBanType) (call : BanServCall)
    (operbans : List OperBan) : List OperBan :=
  if findBan type (maskOf call) operbans ≠ 0 then
    operbans.map fun row =>
      if isFor type (maskOf call) row then
        { row with
          reason := reasonOf call
          hold := holdOf call
          oper := call.oper.name
          remove := false }
      else row
  else
    operbans ++
      [⟨type, lcase (maskOf call), reasonOf call, holdOf call, call.now,
        call.oper.name, false⟩]

/-- What the three commands do behind the expiry in `find_ban`. -/
def placeFound (conf : BanServConf) (kind : BanKind) (call : BanServCall)
    (operbans : List OperBan) : BanServResult :=
  let command := kind.type.command
  let mask := maskOf call
  let refuse (reply : BanServReply) : BanServResult := ⟨operbans, reply, []⟩
  let matched := call.userList.countP (kind.isMatch mask)
  if findBan kind.type mask operbans = 1 then
    refuse (.alreadyPlaced command mask)
  else if tempTimeOf call = 0 ∧ !call.oper.banPerm then
    refuse (.noPermAccess command)
  else if kind.refuses mask then refuse (.invalid command mask)
  else if reasonOf call = [] then refuse (.needMoreParams command)
  else if kind.maxMatches ≠ 0 ∧ !call.oper.banNomax ∧
      kind.maxMatches < matched then
    refuse (.tooManyMatches mask matched kind.maxMatches)
  else
    { operbans := writeBan kind.type call operbans
      reply := .issued command mask
      sent :=
        pushBan conf "*".toList kind.type mask (reasonOf call)
          (tempTimeOf call) }

def placeBan (conf : BanServConf) (kind : BanKind) (call : BanServCall)
    (operbans : List OperBan) : BanServResult :=
  if call.parv.length < 2 then
    ⟨operbans, .needMoreParams kind.type.command, []⟩
  else placeFound conf kind call (expireOperbans call.now operbans)

/-- `o_banserv_kline`. -/
def oBanservKline (conf : BanServConf) :=
  placeBan conf
    { type := .kline
      refuses := fun mask => (splitBan mask).isNone
      maxMatches := conf.maxKlineMatches
      isMatch := fun mask user =>
        match splitBan mask with
        | none => false
        | some (username, host) =>
            match_ username user.username && match_ host user.host }

/-- `o_banserv_xline`. -/
def oBanservXline (conf : BanServConf) :=
  placeBan conf
    { type := .xline
      refuses := fun gecos =>
        decide (conf.nickLen + userLen + hostLen + 2 < gecos.length)
      maxMatches := conf.maxXlineMatches
      isMatch := fun gecos user => match_ gecos user.info }

/-- `o_banserv_resv`. -/
def oBanservResv (conf : BanServConf) :=
  placeBan conf
    { type := .resv
      refuses := fun mask => decide (channelLen < mask.length)
      maxMatches := 0
      isMatch := fun _ _ => false }

/-- What the three commands that take a ban off do behind the expiry in
`find_ban_remove`. -/
def takeOffFound (conf : BanServConf) (type : OperBanType)
    (refuses : CString → Bool) (call : BanServCall) (mask : CString)
    (operbans : List OperBan) : BanServResult :=
  let command := "UN".toList ++ type.command
  let refuse (reply : BanServReply) : BanServResult := ⟨operbans, reply, []⟩
  match findBanRemove type mask operbans with
  | none => refuse (.notPlaced type.command mask)
  | some oper =>
      if !irccmp oper call.oper.name && !call.oper.banRemove then
        refuse (.noAccess command)
      else if refuses mask then refuse (.invalid type.command mask)
      else
        { operbans := operbans.map fun row =>
            if isFor type mask row then
              { row with
                remove := true
                hold := call.now + conf.unbanTime }
            else row
          reply := .issued command mask
          sent := pushUnban "*".toList type mask }

def takeOff (conf : BanServConf) (type : OperBanType)
    (refuses : CString → Bool) (call : BanServCall)
    (operbans : List OperBan) : BanServResult :=
  match call.parv with
  | [] => ⟨operbans, .needMoreParams ("UN".toList ++ type.command), []⟩
  | mask :: _ =>
      takeOffFound conf type refuses call mask
        (expireOperbans call.now operbans)

/-- `o_banserv_unkline`. -/
def oBanservUnkline (conf : BanServConf) :=
  takeOff conf .kline fun mask => (splitBan mask).isNone

/-- `o_banserv_unxline`. -/
def oBanservUnxline (conf : BanServConf) :=
  takeOff conf .xline fun _ => false

/-- `o_banserv_unresv`. -/
def oBanservUnresv (conf : BanServConf) :=
  takeOff conf .resv fun _ => false

def ban (conf : BanServConf) : OperBanType → BanServCall → List OperBan →
    BanServResult
  | .kline => oBanservKline conf
  | .xline => oBanservXline conf
  | .resv => oBanservResv conf

def unban (conf : BanServConf) : OperBanType → BanServCall → List OperBan →
    BanServResult
  | .kline => oBanservUnkline conf
  | .xline => oBanservUnxline conf
  | .resv => oBanservUnresv conf


inductive BanServEvent
  | ban (type : OperBanType) (call : BanServCall)
  | unban (type : OperBanType) (call : BanServCall)
  /-- `e_banserv_expire` -/
  | expire (now : Int)

def step (conf : BanServConf) (operbans : List OperBan) :
    BanServEvent → List OperBan
  | .ban type call => (ban conf type call operbans).operbans
  | .unban type call => (unban conf type call operbans).operbans
  | .expire now => expireOperbans now operbans

/-- `AND type='%c'`, if a letter is given. -/
def ofLetter (letter : Option Char) (row : OperBan) : Bool :=
  match letter with
  | none => true
  | some letter => row.type.letter == letter

/-- `sync_bans`. With a letter the second query gives the time to `%c` in its
place; `shown` is the character that comes of it. If that is a quote or the
terminator the query fails, and nothing more is sent. -/
def syncBans (conf : BanServConf) (now : Int) (target : CString)
    (letter : Option Char) (shown : Char) (operbans : List OperBan) :
    List BanLine :=
  let temporary := operbans.filter fun row =>
    decide (now < row.hold) && !row.remove && ofLetter letter row
  let permanent := operbans.filter fun row =>
    row.hold == 0 && !row.remove && ofLetter (letter.map fun _ => shown) row
  let removed := operbans.filter fun row =>
    decide (now < row.hold) && row.remove && ofLetter letter row
  (temporary.flatMap fun row =>
      pushBan conf target row.type row.mask row.reason (row.hold - now)) ++
    if letter.isSome ∧ shown ∈ ['\'', '\x00'] then []
    else
      (permanent.flatMap fun row =>
          pushBan conf target row.type row.mask row.reason 0) ++
        removed.flatMap fun row => pushUnban target row.type row.mask

end OperBan

end RatboxServices
