import Mathlib.Data.List.Sort
import RatboxServices.Lib.Run
import RatboxServices.Serv.Regs

namespace RatboxServices

open CString

/-! The commands and timers of `s_userserv.c` and `s_chanserv.c` that register,
log in and give access. What they read that is no part of the registrations
comes with them: whether a password or a token is right, the limits and the
mail, the channels on the network. -/

structure Token where
  text : CString
  nonempty : text ≠ []
  deriving DecidableEq, Repr

theorem alice_ne_nil : "alice".toList ≠ [] := by decide

theorem bob_ne_nil : "bob".toList ≠ [] := by decide

/-- An account given by its name, or by the nick of a user after a `=`. -/
inductive AccountArg where
  | account (name : CString)
  | nick (target : Option ClientId)
  deriving DecidableEq, Repr

/-- `USER_SUSPEND_EXPIRED`. -/
def UserReg.suspendExpired (now : Int) (reg : UserReg) : Bool :=
  reg.flags.has usFlagsSuspended && decide (reg.suspendTime ≠ 0) &&
    decide (reg.suspendTime ≤ now)

/-- `CHAN_SUSPEND_EXPIRED`. -/
def ChanReg.suspendExpired (now : Int) (reg : ChanReg) : Bool :=
  reg.flags.has csFlagsSuspended && decide (reg.suspendTime ≠ 0) &&
    decide (reg.suspendTime ≤ now)

def hashWalk (hash : Nat → Nat) (table : List Nat) : List Nat :=
  table.insertionSort fun left right => hash left ≤ hash right

namespace Regs

/-- `expire_user_suspend`. -/
def expireUserSuspend (now : Int) (target : UserRegId) (s : Regs) : Regs :=
  s.modifyUser target fun reg =>
    { reg with
      flags := reg.flags.clear usFlagsSuspended
      suspendTime := 0
      lastTime := now }

/-- `expire_chan_suspend`. -/
def expireChanSuspend (now : Int) (target : ChanRegId) (s : Regs) : Regs :=
  s.modifyChan target fun reg =>
    { reg with
      flags := reg.flags.clear csFlagsSuspended
      suspendTime := 0
      lastTime := now }

def touchUser (now : Int) (target : UserRegId) (s : Regs) : Regs :=
  s.modifyUser target fun reg =>
    { reg with lastTime := now, flags := reg.flags.set usFlagsNeedupdate }

def touchChan (now : Int) (target : ChanRegId) (s : Regs) : Regs :=
  s.modifyChan target fun reg =>
    { reg with lastTime := now, flags := reg.flags.set csFlagsNeedupdate }

def expireIfDue (now : Int) (target : ChanRegId) (s : Regs) : Regs :=
  match s.chan.cell target with
  | some reg =>
      if reg.suspendExpired now then s.expireChanSuspend now target else s
  | none => s

def isSuspended (s : Regs) (target : ChanRegId) : Bool :=
  match s.chan.cell target with
  | some reg => reg.flags.has csFlagsSuspended
  | none => false

/-- `find_user_reg_nick`. -/
def findUserRegNick (s : Regs) : AccountArg → Option UserRegId
  | .account name => s.findUserReg name
  | .nick target => (target.bind s.login).join

/-- `user_reg` of a user on the network. -/
def loginOf (s : Regs) (client : ClientId) : Option UserRegId :=
  (s.login client).join

/-- The entry passes the test of `verify_member_reg`. -/
def allows (s : Regs) (level : Int) (target : MemberRegId) : Bool :=
  match s.member.cell target with
  | some member => decide (level ≤ member.level) && member.suspend == 0
  | none => false

/-- `verify_member_reg`, for commands that need no channel on the network. -/
def verifyMemberReg (now : Int) (client : ClientId) (target : ChanRegId)
    (level : Int) (s : Regs) : Except RegStop (Option MemberRegId × Regs) := do
  let s := s.expireIfDue now target
  if s.isSuspended target then .ok (none, s)
  else
    match ← s.findMemberReg (s.loginOf client) target with
    | none => .ok (none, s)
    | some entry =>
        if s.allows level entry then
          .ok (some entry, s.touchChan now target)
        else .ok (none, s)

/-- What `handle_service` does for a command that asks for a login. -/
def asUser (now : Int) (client : ClientId)
    (body : UserRegId → Regs → Except RegStop Regs) (s : Regs) :
    Except RegStop Regs := do
  match s.loginOf client with
  | none => .ok s
  | some account =>
      let _ ← s.derefUser account
      body account (s.touchUser now account)

/-- The start of every command on an access list: `verify_member_reg_name`. -/
def asMember (now : Int) (client : ClientId) (chname : CString) (level : Int)
    (body : MemberRegId → MemberReg → Regs → Except RegStop Regs) (s : Regs) :
    Except RegStop Regs :=
  s.asUser now client fun _ s =>
    match s.findChannelReg chname with
    | none => .ok s
    | some target => do
        let (found, s) ← s.verifyMemberReg now client target level
        match found with
        | none => .ok s
        | some entry =>
            match s.member.cell entry with
            | none => .ok s
            | some caller => body entry caller s

def onEntry (target : AccountArg) (caller : MemberReg)
    (body : MemberRegId → MemberReg → Regs → Except RegStop Regs) (s : Regs) :
    Except RegStop Regs := do
  match s.findUserRegNick target with
  | none => .ok s
  | some account =>
      match ← s.findMemberReg (some account) caller.channelReg with
      | none => .ok s
      | some entry =>
          match s.member.cell entry with
          | none => .ok s
          | some member => body entry member s

def setMember (target : MemberRegId) (member : MemberReg)
    (change : MemberReg → MemberReg) (row : MemberRow → MemberRow) (s : Regs) :
    Regs :=
  (s.modifyMember target change).updateMembers (s.chanName member.channelReg)
    (s.userName member.userReg) row

def addMember (member : MemberReg) (s : Regs) : Regs :=
  (s.makeMemberReg member).writeMemberDbEntry member

/-- `delete_member_db_entry` and `free_member_reg`. -/
def removeMember (conf : ServConfig) (target : MemberRegId)
    (member : MemberReg) (s : Regs) : Regs :=
  (s.deleteMemberDbEntry member).freeMemberReg conf true target

/-- The flags of the last parameter of `ADDUSER`. -/
def autoFlags : Option CString → Option Word
  | none => some 0#32
  | some text =>
      if strcasecmp text "OP".toList then some (Word.ofBits [csMemberAutoop])
      else if strcasecmp text "VOICE".toList then
        some (Word.ofBits [csMemberAutovoice])
      else if strcasecmp text "NONE".toList then some 0#32
      else none

/-- `s_chan_adduser`. -/
def sChanAdduser (now : Int) (client : ClientId) (chname : CString)
    (target : AccountArg) (levelText : CString) (auto : Option CString) :
    Regs → Except RegStop Regs :=
  asMember now client chname sCUserlist fun _ caller s => do
    match s.findUserRegNick target with
    | none => .ok s
    | some account =>
        if (← s.findMemberReg (some account) caller.channelReg).isSome then
          .ok s
        else
          let reg ← s.derefUser account
          if reg.flags.has usFlagsNoaccess then .ok s
          else
            let level := atoi levelText
            if level < 1 ∨ caller.level ≤ level then .ok s
            else
              match autoFlags auto with
              | none => .ok s
              | some flags =>
                  .ok (s.addMember
                    { userReg := account
                      channelReg := caller.channelReg
                      lastmod := s.userName caller.userReg
                      level := level
                      flags := flags })

/-- `s_chan_deluser`. -/
def sChanDeluser (conf : ServConfig) (now : Int) (client : ClientId)
    (chname : CString) (target : AccountArg) : Regs → Except RegStop Regs :=
  asMember now client chname sCUserlist fun own caller =>
    onEntry target caller fun entry member s =>
      if caller.level ≤ member.level ∧ own ≠ entry then .ok s
      else if member.level = sCOwner then .ok s
      else .ok (s.removeMember conf entry member)

/-- `s_chan_delowner`, which may ask for a token that was mailed. -/
def sChanDelowner (conf : ServConfig) (now : Int) (client : ClientId)
    (chname : CString) (authorised : Bool) : Regs → Except RegStop Regs :=
  asMember now client chname sCOwner fun own caller s =>
    if authorised then .ok (s.removeMember conf own caller) else .ok s

/-- `s_chan_moduser`. -/
def sChanModuser (now : Int) (client : ClientId) (chname : CString)
    (target : AccountArg) (levelText : CString) : Regs → Except RegStop Regs :=
  asMember now client chname sCUserlist fun _ caller =>
    onEntry target caller fun entry member s =>
      if caller.level ≤ member.level then .ok s
      else
        let (value, rest) := strtol levelText
        let level := value.bmod 4294967296
        if !rest.isEmpty ∨ level < 1 ∨ caller.level ≤ level then .ok s
        else
          let lastmod := s.userName caller.userReg
          .ok (s.setMember entry member
            (fun member => { member with level := level, lastmod := lastmod })
            fun row => { row with level := level, lastmod := lastmod })

/-- The flags `MODAUTO` sets. -/
def modautoFlags (text : CString) (flags : Word) : Option Word :=
  if strcasecmp text "OP".toList then
    some ((flags.clear csMemberAutovoice).set csMemberAutoop)
  else if strcasecmp text "VOICE".toList then
    some ((flags.clear csMemberAutoop).set csMemberAutovoice)
  else if strcasecmp text "NONE".toList then
    some ((flags.clear csMemberAutovoice).clear csMemberAutoop)
  else none

/-- `s_chan_modauto`. -/
def sChanModauto (now : Int) (client : ClientId) (chname : CString)
    (target : AccountArg) (auto : CString) : Regs → Except RegStop Regs :=
  asMember now client chname sCUserlist fun own caller =>
    onEntry target caller fun entry member s =>
      if caller.level ≤ member.level ∧ own ≠ entry then .ok s
      else
        match modautoFlags auto member.flags with
        | none => .ok s
        | some flags =>
            let lastmod := s.userName caller.userReg
            .ok (s.setMember entry member
              (fun member => { member with flags := flags, lastmod := lastmod })
              fun row =>
                { row with flags := flags.toInt, lastmod := lastmod })

/-- `s_chan_suspend`. -/
def sChanSuspend (now : Int) (client : ClientId) (chname : CString)
    (target : AccountArg) (levelText : CString) : Regs → Except RegStop Regs :=
  asMember now client chname sCSuspend fun _ caller =>
    onEntry target caller fun entry member s =>
      if caller.level ≤ member.level then .ok s
      else if caller.level < member.suspend then .ok s
      else
        let level := atoi levelText
        if level < 1 ∨ caller.level < level then .ok s
        else
          let lastmod := s.userName caller.userReg
          .ok (s.setMember entry member
            (fun member => { member with suspend := level, lastmod := lastmod })
            fun row => { row with suspend := level, lastmod := lastmod })

/-- `s_chan_unsuspend`. -/
def sChanUnsuspend (now : Int) (client : ClientId) (chname : CString)
    (target : AccountArg) : Regs → Except RegStop Regs :=
  asMember now client chname sCSuspend fun _ caller =>
    onEntry target caller fun entry member s =>
      if caller.level < member.suspend then .ok s
      else
        let lastmod := s.userName caller.userReg
        .ok (s.setMember entry member
          (fun member => { member with suspend := 0, lastmod := lastmod })
          fun row => { row with suspend := 0, lastmod := lastmod })

/-- `init_channel_reg` and the entry of the owner. -/
def registerChannel (now : Int) (name : Token) (account : UserRegId)
    (lastmod : CString) (s : Regs) : Regs :=
  let target := s.chan.next
  let s :=
    { s with
      chan := s.chan.alloc { name := name.text, lastTime := now }
      chanTable := Dlink.add target s.chanTable }
  s.addMember
    { userReg := account
      channelReg := target
      lastmod := lastmod
      level := sCOwner
      flags := 0#32 }

/-- `s_chan_register`; `permitted` is what the channel on the network and the
limits say. The name can be empty, and no channel has an empty name. -/
def sChanRegister (now : Int) (client : ClientId) (name : CString)
    (permitted : Bool) : Regs → Except RegStop Regs :=
  asUser now client fun account s =>
    if named : name = [] then .ok s
    else if !permitted || (s.findChannelReg name).isSome then .ok s
    else .ok (s.registerChannel now ⟨name, named⟩ account (s.userName account))

/-- `o_chan_chanregister`. -/
def oChanChanregister (now : Int) (name : Token) (target : AccountArg)
    (oper : CString) (s : Regs) : Except RegStop Regs := do
  if (s.findChannelReg name.text).isSome then .ok s
  else
    match s.findUserRegNick target with
    | none => .ok s
    | some account =>
        let _ ← s.derefUser account
        .ok (s.registerChannel now name account oper)

/-- `o_chan_chandrop`. -/
def oChanChandrop (conf : ServConfig) (name : CString) (s : Regs) : Regs :=
  match s.findChannelReg name with
  | none => s
  | some target => s.destroyChannelReg conf target

/-- `o_chan_chansuspend`; a duration of 0 is for good. -/
def oChanChansuspend (now duration : Int) (name : CString)
    (reasonGiven : Bool) (s : Regs) : Regs :=
  match s.findChannelReg name with
  | none => s
  | some target =>
      let s := s.expireIfDue now target
      if s.isSuspended target || !reasonGiven then s
      else s.modifyChan target fun reg =>
        { reg with
          flags := reg.flags.set csFlagsSuspended
          lastTime := now
          suspendTime := if duration = 0 then 0 else now + duration }

/-- `o_chan_chanunsuspend`. -/
def oChanChanunsuspend (now : Int) (name : CString) (s : Regs) : Regs :=
  match s.findChannelReg name with
  | none => s
  | some target =>
      if s.isSuspended target then
        s.modifyChan target fun reg =>
          { reg with
            flags := reg.flags.clear csFlagsSuspended
            lastTime := now }
      else s

/-- One channel of `e_chanserv_expirechan`; `inUse` is
`access_users_on_channel`. -/
def expireChan (conf : ServConfig) (now : Int) (inUse : CString → Bool)
    (s : Regs) (target : ChanRegId) : Regs :=
  let s := s.expireIfDue now target
  match s.chan.cell target with
  | none => s
  | some reg =>
      if reg.flags.has csFlagsSuspended then
        if now < reg.lastTime + conf.cexpireSuspendedTime then s
        else s.destroyChannelReg conf target
      else if now < reg.lastTime + conf.cexpireTime then s
      else if inUse reg.name then
        s.modifyChan target fun reg => { reg with lastTime := now }
      else s.destroyChannelReg conf target

/-- `e_chanserv_expirechan`. -/
def eChanservExpirechan (conf : ServConfig) (now : Int)
    (inUse : CString → Bool) (s : Regs) : Regs :=
  (hashWalk (fun target => hashChannel (s.chanName target)) s.chanTable).foldl
    (expireChan conf now inUse) s

/-- `IsNickChar`. -/
def isNickChar (c : Char) : Bool :=
  c == '-' || isDigit c || decide ('A' ≤ c ∧ c ≤ '}')

/-- `valid_username`. -/
def validUsername (conf : ServConfig) (name : CString) : Bool :=
  decide (name.length ≤ conf.userRegNameLen) &&
    !(firstIs isDigit name || firstIs (· == '-') name) && name.all isNickChar

/-- `INSERT INTO users`, whose names are unique. -/
def insertUser (name : CString) (s : Regs) : Except RegStop Regs :=
  if name ∈ s.users then .error .die
  else .ok { s with users := s.users ++ [name] }

def linkUser (client : ClientId) (account : UserRegId) (s : Regs) : Regs :=
  (s.setLogin client (some account)).modifyUser account fun reg =>
    { reg with users := Dlink.add client reg.users }

/-- One channel of `h_chanserv_user_login`. -/
def noteLogin (now : Int) (account : UserRegId) (s : Regs) (chname : CString) :
    Except RegStop Regs := do
  match s.findChannelReg chname with
  | none => .ok s
  | some target =>
      let s := s.expireIfDue now target
      if s.isSuspended target then .ok s
      else
        match ← s.findMemberReg (some account) target with
        | none => .ok s
        | some entry =>
            if s.suspendOf entry ≠ 0 then .ok s
            else .ok (s.touchChan now target)

/-- `h_chanserv_user_login`, over the channels the user is in. -/
def hChanservUserLogin (now : Int) (account : UserRegId)
    (channels : List CString) (s : Regs) : Except RegStop Regs :=
  channels.foldlM (noteLogin now account) s

/-- `s_user_register`; `permitted` is what the password, the mail address and
the limits say. -/
def sUserRegister (conf : ServConfig) (now : Int) (client : ClientId)
    (name : Token) (permitted : Bool) (channels : List CString) (s : Regs) :
    Except RegStop Regs := do
  if s.login client ≠ some none then .ok s
  else if (s.findUserReg name.text).isSome then .ok s
  else if !validUsername conf name.text || !permitted then .ok s
  else
    let account := s.user.next
    let flags :=
      if conf.uregisterVerify then Word.ofBits [usFlagsNeverloggedin] else 0#32
    let s ← (s.addUserReg
      { name := name.text
        given := name.text
        flags := flags
        regTime := now
        lastTime := now }).insertUser name.text
    if conf.uregisterVerify then .ok s
    else (s.linkUser client account).hChanservUserLogin now account channels

/-- `o_user_userregister`. -/
def oUserUserregister (conf : ServConfig) (now : Int) (name : Token)
    (permitted : Bool) (s : Regs) : Except RegStop Regs :=
  if (s.findUserReg name.text).isSome then .ok s
  else if !validUsername conf name.text || !permitted then .ok s
  else
    (s.addUserReg
      { name := strlcpy (conf.userRegNameLen + 1) name.text
        given := name.text
        regTime := now
        lastTime := now }).insertUser
      (strlcpy (conf.userRegNameLen + 1) name.text)

/-- `dbh_user_register` with the statement it schedules. -/
def dbhUserRegister (conf : ServConfig) (now : Int) (name password : CString)
    (s : Regs) : Except RegStop Regs :=
  if name.isEmpty || password.isEmpty then .ok s
  else if (s.findUserReg name).isSome then .ok s
  else
    (s.addUserReg
      { name := strlcpy (conf.userRegNameLen + 1) name
        given := name
        regTime := now
        lastTime := now }).insertUser (strlcpy (conf.userRegNameLen + 1) name)

/-- `s_user_activate`. -/
def sUserActivate (client : ClientId) (name : CString) (tokenRight : Bool)
    (s : Regs) : Regs :=
  if s.login client ≠ some none then s
  else
    match s.findUserReg name with
    | none => s
    | some account =>
        if tokenRight then
          s.modifyUser account fun reg =>
            { reg with flags := reg.flags.clear usFlagsNeverloggedin }
        else s

/-- `s_user_login`. -/
def sUserLogin (conf : ServConfig) (now : Int) (client : ClientId)
    (name : CString) (passwordRight : Bool) (channels : List CString)
    (s : Regs) : Except RegStop Regs := do
  if s.login client ≠ some none then .ok s
  else
    match s.findUserReg name with
    | none => .ok s
    | some account =>
        let reg ← s.derefUser account
        if reg.flags.has usFlagsSuspended && !reg.suspendExpired now then .ok s
        else
          let s :=
            if reg.flags.has usFlagsSuspended then
              s.expireUserSuspend now account
            else s
          if reg.flags.has usFlagsNeverloggedin then .ok s
          else if conf.umaxLogins ≠ 0 ∧ conf.umaxLogins ≤ reg.users.length then
            .ok s
          else if !passwordRight then .ok s
          else
            ((s.touchUser now account).linkUser client account
              ).hChanservUserLogin now account channels

def unlinkUser (client : ClientId) (account : UserRegId) (s : Regs) :
    Except RegStop Regs := do
  let _ ← s.derefUser account
  .ok (s.modifyUser account fun reg =>
    { reg with users := Dlink.findDestroy client reg.users })

/-- `s_user_logout`. -/
def sUserLogout (now : Int) (client : ClientId) : Regs → Except RegStop Regs :=
  asUser now client fun account s => do
    let s ← s.unlinkUser client account
    .ok (s.setLogin client none)

/-- `h_user_burst_login`. -/
def hUserBurstLogin (now : Int) (client : ClientId) (name : CString)
    (eob : Bool) (s : Regs) : Except RegStop Regs := do
  match s.login client with
  | none => .ok s
  | some old =>
      if eob then .ok s
      else
        match s.findUserReg name with
        | none => .ok s
        | some account =>
            let s ←
              match old with
              | none => .ok s
              | some before => s.unlinkUser client before
            let reg ← s.derefUser account
            if reg.flags.has usFlagsSuspended then .ok s
            else .ok ((s.touchUser now account).linkUser client account)

/-- What `exit_user` does about the account of the user. -/
def exitUser (client : ClientId) (s : Regs) : Except RegStop Regs := do
  let s ←
    match s.loginOf client with
    | none => .ok s
    | some account => s.unlinkUser client account
  .ok { s with login := Function.update s.login client none }

/-- `o_user_usersuspend`. -/
def oUserUsersuspend (now duration : Int) (name : CString)
    (reasonGiven : Bool) (s : Regs) : Regs :=
  match s.findUserReg name with
  | none => s
  | some account =>
      match s.user.cell account with
      | none => s
      | some reg =>
          if reg.flags.has usFlagsSuspended && !reg.suspendExpired now then s
          else
            let s :=
              if reg.flags.has usFlagsSuspended then
                s.expireUserSuspend now account
              else s
            if !reasonGiven then s
            else
              (s.logoutUserReg account).modifyUser account fun reg =>
                { reg with
                  flags := reg.flags.set usFlagsSuspended
                  lastTime := now
                  suspendTime := if duration = 0 then 0 else now + duration }

/-- `o_user_userunsuspend`. -/
def oUserUserunsuspend (now : Int) (name : CString) (s : Regs) : Regs :=
  match s.findUserReg name with
  | none => s
  | some account => s.modifyUser account fun reg =>
      if reg.flags.has usFlagsSuspended then
        { reg with
          flags := reg.flags.clear usFlagsSuspended
          suspendTime := 0
          lastTime := now }
      else reg

/-- `o_user_userdrop`. -/
def oUserUserdrop (conf : ServConfig) (name : CString) (s : Regs) : Regs :=
  match s.findUserReg name with
  | none => s
  | some account => (s.logoutUserReg account).freeUserReg conf account

/-- `SET NOACCESS` of `s_user_set`. -/
def sUserSetNoaccess (now : Int) (client : ClientId) (on : Bool) :
    Regs → Except RegStop Regs :=
  asUser now client fun account s =>
    .ok (s.modifyUser account fun reg =>
      { reg with
        flags :=
          if on then reg.flags.set usFlagsNoaccess
          else reg.flags.clear usFlagsNoaccess })

/-- `expire_bonus`, with the conversions to `unsigned int` and `int`. -/
def expireBonus (conf : ServConfig) (duration : Int) : Int :=
  if conf.uexpireBonusPerTime = 0 ∨ conf.uexpireBonus = 0 then 0
  else if duration < conf.uexpireBonusRegtime then 0
  else
    let bonus := (duration.tdiv conf.uexpireBonusPerTime * conf.uexpireBonus) %
      4294967296
    if conf.uexpireBonusMax ≠ 0 ∧
        conf.uexpireBonusMax % 4294967296 < bonus then
      conf.uexpireBonusMax
    else bonus.bmod 4294967296

/-- One account of `e_user_expire`. -/
def expireUser (conf : ServConfig) (now : Int) (s : Regs)
    (account : UserRegId) : Regs :=
  match s.user.cell account with
  | none => s
  | some reg =>
      if reg.flags.has usFlagsNeverloggedin &&
          decide (reg.regTime + conf.uexpireUnverifiedTime ≤ now) then
        s.freeUserReg conf account
      else
        let lastTime := if reg.users.isEmpty then reg.lastTime else now
        let s := s.modifyUser account fun reg =>
          { reg with
            lastTime := lastTime
            flags := reg.flags.clear usFlagsNeedupdate }
        if reg.flags.has usFlagsSuspended then
          let expired := reg.suspendExpired now
          let s := if expired then s.expireUserSuspend now account else s
          let lastTime := if expired then now else lastTime
          if conf.uexpireSuspendedTime = 0 ∨
              now < lastTime + conf.uexpireSuspendedTime then s
          else s.freeUserReg conf account
        else if now < lastTime + conf.uexpireTime +
            expireBonus conf (now - reg.regTime) then s
        else s.freeUserReg conf account

def maxHashWalk : Nat := 1024

def maxNameHash : Nat := 65536

/-- The accounts of the buckets a turn of `e_user_expire` looks at. -/
def expireWalk (s : Regs) : List UserRegId :=
  hashWalk (fun account => hashName (s.userName account))
    (s.userTable.filter fun account =>
      let hashv := hashName (s.userName account)
      decide (s.hashPos ≤ hashv ∧ hashv < s.hashPos + maxHashWalk))

/-- `e_user_expire`. -/
def eUserExpire (conf : ServConfig) (now : Int) (s : Regs) : Regs :=
  let last := s.hashPos + maxHashWalk
  { s.expireWalk.foldl (expireUser conf now) s with
    hashPos := if maxNameHash ≤ last then 0 else last }

end Regs

inductive RegAct where
  | connect (client : ClientId)
  | exit (client : ClientId)
  | burst (client : ClientId) (name : CString) (eob : Bool)
  | userRegister (client : ClientId) (name : Token) (permitted : Bool)
      (channels : List CString)
  | operUserRegister (name : Token) (permitted : Bool)
  | hookRegister (name password : CString)
  | activate (client : ClientId) (name : CString) (tokenRight : Bool)
  | login (client : ClientId) (name : CString) (passwordRight : Bool)
      (channels : List CString)
  | logout (client : ClientId)
  | setNoaccess (client : ClientId) (on : Bool)
  | userSuspend (duration : Int) (name : CString) (reasonGiven : Bool)
  | userUnsuspend (name : CString)
  | userDrop (name : CString)
  | userExpire
  | chanRegister (client : ClientId) (name : CString) (permitted : Bool)
  | operChanRegister (name : Token) (target : AccountArg) (oper : CString)
  | chanSuspend (duration : Int) (name : CString) (reasonGiven : Bool)
  | chanUnsuspend (name : CString)
  | chanDrop (name : CString)
  | chanExpire (inUse : CString → Bool)
  | adduser (client : ClientId) (chname : CString) (target : AccountArg)
      (level : CString) (auto : Option CString)
  | deluser (client : ClientId) (chname : CString) (target : AccountArg)
  | delowner (client : ClientId) (chname : CString) (authorised : Bool)
  | moduser (client : ClientId) (chname : CString) (target : AccountArg)
      (level : CString)
  | modauto (client : ClientId) (chname : CString) (target : AccountArg)
      (auto : CString)
  | suspend (client : ClientId) (chname : CString) (target : AccountArg)
      (level : CString)
  | unsuspend (client : ClientId) (chname : CString) (target : AccountArg)

structure RegEvent where
  now : Int
  act : RegAct

namespace Regs

def step (conf : ServConfig) (s : Regs) (event : RegEvent) :
    Except RegStop Regs :=
  let now := event.now
  match event.act with
  | .connect client =>
      if (s.login client).isSome then .ok s else .ok (s.setLogin client none)
  | .exit client => s.exitUser client
  | .burst client name eob => s.hUserBurstLogin now client name eob
  | .userRegister client name permitted channels =>
      s.sUserRegister conf now client name permitted channels
  | .operUserRegister name permitted =>
      s.oUserUserregister conf now name permitted
  | .hookRegister name password => s.dbhUserRegister conf now name password
  | .activate client name tokenRight =>
      .ok (s.sUserActivate client name tokenRight)
  | .login client name passwordRight channels =>
      s.sUserLogin conf now client name passwordRight channels
  | .logout client => s.sUserLogout now client
  | .setNoaccess client on => s.sUserSetNoaccess now client on
  | .userSuspend duration name reasonGiven =>
      .ok (s.oUserUsersuspend now duration name reasonGiven)
  | .userUnsuspend name => .ok (s.oUserUserunsuspend now name)
  | .userDrop name => .ok (s.oUserUserdrop conf name)
  | .userExpire => .ok (s.eUserExpire conf now)
  | .chanRegister client name permitted =>
      s.sChanRegister now client name permitted
  | .operChanRegister name target oper =>
      s.oChanChanregister now name target oper
  | .chanSuspend duration name reasonGiven =>
      .ok (s.oChanChansuspend now duration name reasonGiven)
  | .chanUnsuspend name => .ok (s.oChanChanunsuspend now name)
  | .chanDrop name => .ok (s.oChanChandrop conf name)
  | .chanExpire inUse => .ok (s.eChanservExpirechan conf now inUse)
  | .adduser client chname target level auto =>
      s.sChanAdduser now client chname target level auto
  | .deluser client chname target =>
      s.sChanDeluser conf now client chname target
  | .delowner client chname authorised =>
      s.sChanDelowner conf now client chname authorised
  | .moduser client chname target level =>
      s.sChanModuser now client chname target level
  | .modauto client chname target auto =>
      s.sChanModauto now client chname target auto
  | .suspend client chname target level =>
      s.sChanSuspend now client chname target level
  | .unsuspend client chname target =>
      s.sChanUnsuspend now client chname target

end Regs

end RatboxServices
