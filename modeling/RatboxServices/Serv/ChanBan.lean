import RatboxServices.Net.ChannelCommand
import RatboxServices.Serv.RegCommand

namespace RatboxServices

open CString

/-! Bans of registered channels: `ADDBAN`, `DELBAN`, `MODBAN`, `UNBAN`, the timer
that removes those that have run out, and what a join does about them. What
they read of the channel on the network comes with them. -/

/-- The digits and the unit of `get_temp_time`, in minutes. The sums wrap as
those of a signed 64-bit `time_t`. -/
def tempTimeLoop : Int → CString → Option Int
  | result, [] => some result
  | result, c :: rest =>
      if isDigit c then
        tempTimeLoop ((result * 10 + (c.toNat % 16 : Nat)).bmod
          18446744073709551616) rest
      else if result = 0 ∨ rest ≠ [] then none
      else if c = 'h' ∨ c = 'H' then
        some ((result * 60).bmod 18446744073709551616)
      else if c = 'd' ∨ c = 'D' then
        some ((result * 1440).bmod 18446744073709551616)
      else if c = 'w' ∨ c = 'W' then
        some ((result * 10080).bmod 18446744073709551616)
      else none

/-- `get_temp_time`, a year at most. -/
def getTempTime (duration : CString) : Int :=
  match tempTimeLoop 0 duration with
  | none => 0
  | some result =>
      (if 524160 < result ∨ result < 0 then 524160 else result) * 60

example : getTempTime "2d".toList = 172800 := by decide

def reasonMagic : Nat := 50

/-- The words of a reason, cut at `REASON_MAGIC`. -/
def joinReason : CString → List CString → CString
  | reason, [] => reason
  | reason, word :: rest =>
      let reason := reason ++ word
      if reasonMagic ≤ reason.length then reason.take reasonMagic
      else joinReason (if rest.isEmpty then reason else reason ++ [' ']) rest

/-- The parameters of `ADDBAN`, four at least. -/
structure AddbanArgs where
  chname : CString
  second : CString
  third : CString
  fourth : CString
  rest : List CString

namespace AddbanArgs

def duration (parv : AddbanArgs) : Int :=
  getTempTime parv.second

def fields (parv : AddbanArgs) : CString × CString × List CString :=
  if parv.duration ≠ 0 then (parv.third, parv.fourth, parv.rest)
  else (parv.second, parv.third, parv.fourth :: parv.rest)

def mask (parv : AddbanArgs) : CString :=
  parv.fields.1

end AddbanArgs

/-- The record that `make_ban_reg` makes. Its last parameter is an `int`. -/
def makeBan (mask reason username : CString) (level hold : Int) : BanReg where
  mask := collapse mask
  reason := if reason.isEmpty then "No Reason".toList else reason
  username := if username.isEmpty then "unknown".toList else username
  level := level
  hold := hold.bmod 4294967296

/-- `find_ban_reg`. -/
def findBanReg (bans : List BanReg) (mask : CString) : Option BanReg :=
  bans.find? fun ban => irccmp ban.mask mask

def BanReg.expired (now : Int) (ban : BanReg) : Bool :=
  decide (ban.hold ≠ 0) && decide (ban.hold ≤ now)

/-- A change of the ban that `find_ban_reg` finds. -/
def modifyBan (mask : CString) (change : BanReg → BanReg) :
    List BanReg → List BanReg
  | [] => []
  | ban :: rest =>
      if irccmp ban.mask mask then change ban :: rest
      else ban :: modifyBan mask change rest

/-- The row of a ban; `hold` is written with `%lu`. -/
def BanReg.row (chname : CString) (ban : BanReg) : BanRow where
  chname := chname
  mask := ban.mask
  reason := ban.reason
  username := ban.username
  level := ban.level
  hold := ban.hold % 18446744073709551616

def BanRow.isOf (chname mask : CString) (row : BanRow) : Bool :=
  row.chname == chname && row.mask == mask

structure LiveUser where
  client : ClientId
  mask : CString

structure LiveChan where
  bans : List CString
  excepts : List CString
  users : List LiveUser

/-- `find_exempt`. -/
def findExempt (excepts : List CString) (mask : CString) : Bool :=
  excepts.any fun except => match_ except mask

namespace Regs

/-- `make_ban_reg` and `write_ban_db_entry`. -/
def addBan (target : ChanRegId) (ban : BanReg) (s : Regs) : Regs :=
  let s := s.modifyChan target fun reg =>
    { reg with bans := Dlink.add ban reg.bans }
  { s with bans := s.bans ++ [ban.row (s.chanName target)] }

/-- `DELETE FROM bans` and `free_ban_reg`. -/
def removeBan (target : ChanRegId) (ban : BanReg) (s : Regs) : Regs :=
  let chname := s.chanName target
  let s := { s with
    bans := s.bans.filter fun row => !BanRow.isOf chname ban.mask row }
  s.modifyChan target fun reg => { reg with bans := Dlink.delete ban reg.bans }

def bumpBants (target : ChanRegId) (s : Regs) : Regs :=
  s.modifyChan target fun reg => { reg with bants := reg.bants + 1 }

def bantsOf (s : Regs) (target : ChanRegId) : BitVec 64 :=
  match s.chan.cell target with
  | some reg => reg.bants
  | none => 0

def bansOf (s : Regs) (target : ChanRegId) : List BanReg :=
  match s.chan.cell target with
  | some reg => reg.bans
  | none => []

def cacheBan (target : ChanRegId) (entry : MemberRegId) (s : Regs) : Regs :=
  s.modifyMember entry fun member =>
    { member with bants := s.bantsOf target }

def isCached (s : Regs) (entry : MemberRegId) : Bool :=
  match s.member.cell entry with
  | some member => member.bants == s.bantsOf member.channelReg
  | none => false

/-- The ban that `ADDBAN` makes when its checks pass. -/
def newBan (conf : ServConfig) (now : Int) (callerLevel : Int)
    (username : CString) (parv : AddbanArgs) (bans : List BanReg) :
    Option BanReg :=
  let (mask, levelText, words) := parv.fields
  if !State.validBan conf.nickLen mask then none
  else if (findBanReg bans mask).isSome then none
  else
    let (value, rest) := strtol levelText
    let level := value.bmod 4294967296
    if !rest.isEmpty ∨ level < 1 ∨ callerLevel < level then none
    else if words.isEmpty then none
    else some (makeBan mask (joinReason [] words) username level
      (if parv.duration ≠ 0 then now + parv.duration else 0))

def enforceBan (target : ChanRegId) (mask : CString) (level : Int)
    (excepts : List CString) (s : Regs) (user : LiveUser) :
    Except RegStop Regs := do
  if !match_ mask user.mask || findExempt excepts user.mask then .ok s
  else
    match ← s.findMemberReg (s.loginOf user.client) target with
    | none => .ok s
    | some entry =>
        if level ≤ s.levelOf entry ∧ s.suspendOf entry = 0 then .ok s
        else .ok (s.cacheBan target entry)

/-- `s_chan_addban`. The channel on the network may not be there. -/
def sChanAddban (conf : ServConfig) (now : Int) (client : ClientId)
    (parv : AddbanArgs) (live : Option LiveChan) :
    Regs → Except RegStop Regs :=
  asMember now client parv.chname sCRegular fun _ caller s =>
    let bans := s.bansOf caller.channelReg
    if conf.cmaxBans < bans.length then
      -- the error is about `chptr->name`
      match live with
      | none => .error .nullChannel
      | some _ => .ok s
    else
      match newBan conf now caller.level (s.userName caller.userReg) parv
          bans with
      | none => .ok s
      | some ban =>
          let s := s.addBan caller.channelReg ban
          match live with
          | none => .ok s
          | some chan =>
              if chan.bans.any fun mask => irccmp mask parv.mask then .ok s
              else
                chan.users.foldlM (enforceBan caller.channelReg parv.mask
                  ban.level chan.excepts) s

/-- `s_chan_delban`. -/
def sChanDelban (now : Int) (client : ClientId) (chname mask : CString) :
    Regs → Except RegStop Regs :=
  asMember now client chname sCRegular fun _ caller s =>
    match findBanReg (s.bansOf caller.channelReg) mask with
    | none => .ok s
    | some ban =>
        if caller.level < ban.level then .ok s
        else
          .ok ((s.removeBan caller.channelReg ban).bumpBants caller.channelReg)

/-- The change that `MODBAN` makes, whose statement selects by the mask as it
was typed. -/
def modBan (target : ChanRegId) (mask : CString) (level : Int)
    (username : CString) (s : Regs) : Regs :=
  let chname := s.chanName target
  let s := { s with
    bans := s.bans.map fun row =>
      if BanRow.isOf chname mask row then
        { row with level := level, username := username }
      else row }
  s.modifyChan target fun reg =>
    { reg with
      bans := modifyBan mask (fun ban =>
        { ban with level := level, username := username }) reg.bans }

/-- `s_chan_modban`. -/
def sChanModban (now : Int) (client : ClientId)
    (chname mask levelText : CString) : Regs → Except RegStop Regs :=
  asMember now client chname sCRegular fun _ caller s =>
    let (value, rest) := strtol levelText
    let level := value.bmod 4294967296
    if !rest.isEmpty ∨ level < 1 ∨ caller.level < level then .ok s
    else
      match findBanReg (s.bansOf caller.channelReg) mask with
      | none => .ok s
      | some ban =>
          if caller.level < ban.level then .ok s
          else
            .ok ((s.modBan caller.channelReg mask level
              (s.userName caller.userReg)).bumpBants caller.channelReg)

/-- `s_chan_unban` up to the cached answer, and whether that is given. -/
def sChanUnban (now : Int) (client : ClientId) (chname : CString)
    (live : Bool) (s : Regs) : Except RegStop (Bool × Regs) := do
  match s.loginOf client with
  | none => .ok (false, s)
  | some account =>
      let _ ← s.derefUser account
      let s := s.touchUser now account
      match s.findChannelReg chname with
      | none => .ok (false, s)
      | some target =>
          if !live then .ok (false, s)
          else
            let (found, s) ← s.verifyMemberReg now client target sCRegular
            match found with
            | none => .ok (false, s)
            | some entry => .ok (s.isCached entry, s)

/-- One channel of `e_chanserv_expireban`. -/
def expireBans (now : Int) (s : Regs) (target : ChanRegId) : Regs :=
  ((s.bansOf target).filter (BanReg.expired now)).foldl
    (fun s ban => s.removeBan target ban) s

/-- `e_chanserv_expireban`. -/
def eChanservExpireban (now : Int) (s : Regs) : Regs :=
  (hashWalk (fun target => hashChannel (s.chanName target)) s.chanTable).foldl
    (expireBans now) s

def hitBan (now : Int) (level : Option Int) (mask : CString)
    (excepts : List CString) (bans : List BanReg) : Option BanReg :=
  match bans.find? fun ban =>
      !ban.expired now && match_ ban.mask mask &&
        !(level.any fun level => decide (ban.level ≤ level)) with
  | none => none
  | some ban => if findExempt excepts mask then none else some ban

def activeEntry (s : Regs) (client : ClientId) (target : ChanRegId) :
    Except RegStop (Option MemberRegId) := do
  let found ← s.findMemberReg (s.loginOf client) target
  .ok (found.filter fun entry => s.suspendOf entry == 0)

/-- One user of `h_chanserv_join`. -/
def joinUser (now : Int) (target : ChanRegId) (excepts : List CString)
    (s : Regs) (user : LiveUser) : Except RegStop Regs := do
  let found ← s.activeEntry user.client target
  match hitBan now (found.map s.levelOf) user.mask excepts (s.bansOf target),
      found with
  | some _, some entry => .ok (s.cacheBan target entry)
  | none, some _ => .ok (s.touchChan now target)
  | _, none => .ok s

/-- `h_chanserv_join`, as far as it is about registrations. -/
def hChanservJoin (now : Int) (chname : CString) (excepts : List CString)
    (users : List LiveUser) (s : Regs) : Except RegStop Regs :=
  if users.isEmpty then .ok s
  else
    match s.findChannelReg chname with
    | none => .ok s
    | some target =>
        let s := s.expireIfDue now target
        if s.isSuspended target then .ok s
        else users.foldlM (joinUser now target excepts) s

end Regs

inductive BanAct where
  | addban (client : ClientId) (parv : AddbanArgs) (live : Option LiveChan)
  | delban (client : ClientId) (chname mask : CString)
  | modban (client : ClientId) (chname mask level : CString)
  | unban (client : ClientId) (chname : CString) (live : Bool)
  | expireban
  | join (chname : CString) (excepts : List CString) (users : List LiveUser)

inductive ServAct where
  | reg (act : RegAct)
  | ban (act : BanAct)

structure ServEvent where
  now : Int
  act : ServAct

namespace Regs

def banStep (conf : ServConfig) (s : Regs) (now : Int) :
    BanAct → Except RegStop Regs
  | .addban client parv live => s.sChanAddban conf now client parv live
  | .delban client chname mask => s.sChanDelban now client chname mask
  | .modban client chname mask level =>
      s.sChanModban now client chname mask level
  | .unban client chname live => do
      let (_, s) ← s.sChanUnban now client chname live
      .ok s
  | .expireban => .ok (s.eChanservExpireban now)
  | .join chname excepts users => s.hChanservJoin now chname excepts users

def servStep (conf : ServConfig) (s : Regs) (event : ServEvent) :
    Except RegStop Regs :=
  match event.act with
  | .reg act => s.step conf ⟨event.now, act⟩
  | .ban act => s.banStep conf event.now act

end Regs

end RatboxServices
