import RatboxServices.Irc.Line
import RatboxServices.Irc.Match
import RatboxServices.Lib.Index
import RatboxServices.Net.Data

namespace RatboxServices

open CString

/-! The records of `s_userserv.h` and `s_chanserv.h`: accounts, registered
channels and the access entries between them, with the rows that the database
keeps of them. A pointer is the address of its cell in the heap of its type. -/

abbrev UserRegId := Nat

abbrev ChanRegId := Nat

abbrev MemberRegId := Nat

-- s_userserv.h: flags of an account
def usFlagsSuspended : Nat := 0
def usFlagsNeverloggedin : Nat := 2
def usFlagsNoaccess : Nat := 3
def usFlagsNeedupdate : Nat := 16

-- s_chanserv.h: flags of a registered channel
def csFlagsSuspended : Nat := 0
def csFlagsNoops : Nat := 1
def csFlagsAutojoin : Nat := 2
def csFlagsRestrictops : Nat := 4
def csFlagsNovoices : Nat := 5
def csFlagsNouserbans : Nat := 7
def csFlagsNeedupdate : Nat := 16

-- s_chanserv.h: flags of an access entry
def csMemberAutoop : Nat := 0
def csMemberAutovoice : Nat := 1

-- s_chanserv.c: levels
def sCOwner : Int := 200
def sCUserlist : Int := 150
def sCSuspend : Int := 100
def sCOp : Int := 50
def sCRegular : Int := 10

structure UserReg where
  name : CString
  /-- The name it was registered with, which the source does not keep. -/
  given : CString
  flags : Word := 0#32
  suspendTime : Int := 0
  regTime : Int := 0
  lastTime : Int := 0
  channels : List MemberRegId := []
  users : List ClientId := []
  deriving DecidableEq, Repr

structure BanReg where
  mask : CString
  reason : CString
  username : CString
  level : Int
  hold : Int
  deriving DecidableEq, Repr

structure ChanReg where
  name : CString
  flags : Word := 0#32
  suspendTime : Int := 0
  lastTime : Int := 0
  bants : BitVec 64 := 1#64
  users : List MemberRegId := []
  bans : List BanReg := []
  deriving DecidableEq, Repr

structure MemberReg where
  userReg : UserRegId
  channelReg : ChanRegId
  level : Int
  flags : Word
  lastmod : CString
  suspend : Int := 0
  bants : BitVec 64 := 0#64
  deriving DecidableEq, Repr

/-- A row of table `members`. -/
structure MemberRow where
  chname : CString
  username : CString
  lastmod : CString
  level : Int
  flags : Int
  suspend : Int
  deriving DecidableEq, Repr

def MemberRow.isOf (chname username : CString) (row : MemberRow) : Bool :=
  row.chname == chname && row.username == username

/-- A row of table `bans`. -/
structure BanRow where
  chname : CString
  mask : CString
  reason : CString
  username : CString
  level : Int
  hold : Int
  deriving DecidableEq, Repr

structure Regs where
  user : Heap UserReg
  chan : Heap ChanReg
  member : Heap MemberReg
  /-- `user_reg_table`, the newest account of each bucket first. -/
  userTable : List UserRegId
  chanTable : List ChanRegId
  /-- `user_reg` of the users on the network. -/
  login : ClientId → Option (Option UserRegId)
  hashPos : Nat
  /-- Column `username` of table `users`. -/
  users : List CString
  members : List MemberRow
  bans : List BanRow

structure ServConfig where
  myName : CString
  nickLen : Nat
  userRegNameLen : Nat
  someName : 0 < userRegNameLen
  uregisterVerify : Bool
  umaxLogins : Nat
  uexpireTime : Int
  uexpireSuspendedTime : Int
  uexpireUnverifiedTime : Int
  uexpireBonusRegtime : Int
  uexpireBonus : Int
  uexpireBonusPerTime : Int
  uexpireBonusMax : Int
  cexpireTime : Int
  cexpireSuspendedTime : Int
  cmaxBans : Nat

/-- `set_default_conf`, with the lengths of `configure`. -/
def setDefaultConf (myName : CString) : ServConfig where
  myName := myName
  nickLen := 10
  userRegNameLen := 10
  someName := by decide
  uregisterVerify := false
  umaxLogins := 5
  uexpireTime := 2419200
  uexpireSuspendedTime := 2419200
  uexpireUnverifiedTime := 86400
  uexpireBonusRegtime := 4838400
  uexpireBonus := 86400
  uexpireBonusPerTime := 1209600
  uexpireBonusMax := 2419200
  cexpireTime := 2419200
  cexpireSuspendedTime := 2419200
  cmaxBans := 50

/-- Why a command does not return: an account that was freed is used, a channel
that is not there is, or a statement fails. -/
inductive RegStop where
  | freed (account : UserRegId)
  | nullChannel
  | die
  deriving DecidableEq, Repr

namespace Regs

def empty : Regs where
  user := .empty
  chan := .empty
  member := .empty
  userTable := []
  chanTable := []
  login := fun _ => none
  hashPos := 0
  users := []
  members := []
  bans := []

def modifyUser (target : UserRegId) (change : UserReg → UserReg) (s : Regs) :
    Regs :=
  { s with user := s.user.modify target change }

def modifyChan (target : ChanRegId) (change : ChanReg → ChanReg) (s : Regs) :
    Regs :=
  { s with chan := s.chan.modify target change }

def modifyMember (target : MemberRegId) (change : MemberReg → MemberReg)
    (s : Regs) : Regs :=
  { s with member := s.member.modify target change }

def setLogin (client : ClientId) (account : Option UserRegId) (s : Regs) :
    Regs :=
  { s with login := Function.update s.login client (some account) }

def userNamed (s : Regs) (name : CString) (target : UserRegId) : Bool :=
  match s.user.cell target with
  | some reg => hashName reg.name == hashName name && strcasecmp reg.name name
  | none => false

/-- `find_user_reg`. -/
def findUserReg (s : Regs) (name : CString) : Option UserRegId :=
  s.userTable.find? (s.userNamed name)

def chanNamed (s : Regs) (name : CString) (target : ChanRegId) : Bool :=
  match s.chan.cell target with
  | some reg => hashChannel reg.name == hashChannel name && irccmp reg.name name
  | none => false

/-- `find_channel_reg`. -/
def findChannelReg (s : Regs) (name : CString) : Option ChanRegId :=
  s.chanTable.find? (s.chanNamed name)

def derefUser (s : Regs) (target : UserRegId) : Except RegStop UserReg :=
  match s.user.cell target with
  | some reg => .ok reg
  | none => .error (.freed target)

def entryIn (s : Regs) (chan : ChanRegId) (target : MemberRegId) : Bool :=
  match s.member.cell target with
  | some member => member.channelReg == chan
  | none => false

/-- `find_member_reg`. -/
def findMemberReg (s : Regs) (account : Option UserRegId) (chan : ChanRegId) :
    Except RegStop (Option MemberRegId) :=
  match account with
  | none => .ok none
  | some target => do
      let reg ← s.derefUser target
      .ok (reg.channels.find? (s.entryIn chan))

/-- `UPDATE members SET … WHERE chname = … AND username = …`. -/
def updateMembers (chname username : CString)
    (change : MemberRow → MemberRow) (s : Regs) : Regs :=
  { s with
    members := s.members.map fun row =>
      if MemberRow.isOf chname username row then change row else row }

def deleteMembers (test : MemberRow → Bool) (s : Regs) : Regs :=
  { s with members := s.members.filter fun row => !test row }

def userName (s : Regs) (target : UserRegId) : CString :=
  match s.user.cell target with
  | some reg => reg.name
  | none => []

def chanName (s : Regs) (target : ChanRegId) : CString :=
  match s.chan.cell target with
  | some reg => reg.name
  | none => []

def rowOf (s : Regs) (member : MemberReg) : MemberRow where
  chname := s.chanName member.channelReg
  username := s.userName member.userReg
  lastmod := member.lastmod
  level := member.level
  flags := member.flags.toInt
  suspend := member.suspend

/-- `write_member_db_entry`, which writes that nobody is suspended. -/
def writeMemberDbEntry (member : MemberReg) (s : Regs) : Regs :=
  { s with members := s.members ++ [{ s.rowOf member with suspend := 0 }] }

/-- `delete_member_db_entry`. -/
def deleteMemberDbEntry (member : MemberReg) (s : Regs) : Regs :=
  s.deleteMembers (MemberRow.isOf (s.chanName member.channelReg)
    (s.userName member.userReg))

/-- `make_member_reg`. -/
def makeMemberReg (member : MemberReg) (s : Regs) : Regs :=
  let target := s.member.next
  let s := { s with member := s.member.alloc member }
  let s := s.modifyUser member.userReg fun reg =>
    { reg with channels := Dlink.add target reg.channels }
  s.modifyChan member.channelReg fun reg =>
    { reg with users := Dlink.add target reg.users }

/-- `free_channel_reg`. -/
def freeChannelReg (target : ChanRegId) (s : Regs) : Regs :=
  let name := s.chanName target
  { s with
    chan := s.chan.free target
    chanTable := Dlink.delete target s.chanTable
    bans := s.bans.filter fun row => row.chname != name }

def levelOf (s : Regs) (target : MemberRegId) : Int :=
  match s.member.cell target with
  | some member => member.level
  | none => 0

def suspendOf (s : Regs) (target : MemberRegId) : Int :=
  match s.member.cell target with
  | some member => member.suspend
  | none => 0

/-- `!top || entry->level > top->level`. -/
def isAbove (s : Regs) (target : MemberRegId) : Option MemberRegId → Bool
  | none => true
  | some top => decide (s.levelOf top < s.levelOf target)

def searchHighest (s : Regs)
    (tops : Option MemberRegId × Option MemberRegId) (target : MemberRegId) :
    Option MemberRegId × Option MemberRegId :=
  if s.suspendOf target ≠ 0 then
    if s.isAbove target tops.2 then (tops.1, some target) else tops
  else if s.isAbove target tops.1 then (some target, tops.2)
  else tops

def highest (s : Regs) (users : List MemberRegId) : Option MemberRegId :=
  let (top, topsus) := users.foldl s.searchHighest (none, none)
  match top with
  | some target => some target
  | none => topsus

/-- The promotion of `free_member_reg`. Whoever is promoted while suspended is
not any more. -/
def promote (conf : ServConfig) (target : MemberRegId) (s : Regs) : Regs :=
  match s.member.cell target with
  | none => s
  | some member =>
      let s := s.modifyMember target fun member =>
        { member with
          level := sCOwner
          lastmod := conf.myName
          suspend := 0 }
      s.updateMembers (s.chanName member.channelReg)
        (s.userName member.userReg) fun row =>
          { row with level := sCOwner, suspend := 0, lastmod := conf.myName }

def unlinkMember (target : MemberRegId) (member : MemberReg) (s : Regs) :
    Regs :=
  let s := s.modifyUser member.userReg fun reg =>
    { reg with channels := Dlink.delete target reg.channels }
  let s := s.modifyChan member.channelReg fun reg =>
    { reg with users := Dlink.delete target reg.users }
  { s with member := s.member.free target }

/-- `free_member_reg`. -/
def freeMemberReg (conf : ServConfig) (upgrade : Bool) (target : MemberRegId)
    (s : Regs) : Regs :=
  match s.member.cell target with
  | none => s
  | some member =>
      let s := s.unlinkMember target member
      match s.chan.cell member.channelReg with
      | none => s
      | some reg =>
          if reg.users.isEmpty then s.freeChannelReg member.channelReg
          else if member.level == sCOwner && upgrade then
            match s.highest reg.users with
            | some top => s.promote conf top
            | none => s
          else s

/-- `destroy_channel_reg`. -/
def destroyChannelReg (conf : ServConfig) (target : ChanRegId) (s : Regs) :
    Regs :=
  match s.chan.cell target with
  | none => s
  | some reg =>
      let s := s.deleteMembers fun row => row.chname == reg.name
      reg.users.foldl (fun s entry => s.freeMemberReg conf false entry) s

/-- `add_user_reg` of a new account. -/
def addUserReg (reg : UserReg) (s : Regs) : Regs :=
  { s with
    user := s.user.alloc reg
    userTable := Dlink.add s.user.next s.userTable }

/-- `free_user_reg`. -/
def freeUserReg (conf : ServConfig) (target : UserRegId) (s : Regs) : Regs :=
  match s.user.cell target with
  | none => s
  | some reg =>
      let s := { s with userTable := Dlink.delete target s.userTable }
      let s := s.deleteMembers fun row => row.username == reg.name
      let s := reg.channels.foldl
        (fun s entry => s.freeMemberReg conf true entry) s
      { s with
        users := s.users.filter fun name => name != reg.name
        user := s.user.free target }

/-- `logout_user_reg`. -/
def logoutUserReg (target : UserRegId) (s : Regs) : Regs :=
  match s.user.cell target with
  | none => s
  | some reg =>
      let s := reg.users.foldl (fun s client => s.setLogin client none) s
      s.modifyUser target fun reg => { reg with users := [] }

end Regs

end RatboxServices
