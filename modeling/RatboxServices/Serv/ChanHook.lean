import RatboxServices.Net.HookCall
import RatboxServices.Serv.ChanBan
import RatboxServices.Serv.RegSettle

namespace RatboxServices

open CString

/-! The callbacks of ChanServ on the hooks of the channel handlers: what they do
to a channel on the network, from what is registered about it. -/

structure ChanSettings where
  tsinfo : Int
  topic : CString
  cmode : Chmode
  emode : Chmode

/-- What the callbacks read that they do not change. Whom they find an entry for
does not depend on what `h_chanserv_join` notes in the registrations. -/
structure ChanServ where
  regs : Regs
  settings : ChanRegId → ChanSettings
  /-- `chanserv_p`. -/
  self : ClientId

def Regs.access (s : Regs) (client : ClientId) (target : ChanRegId) :
    Option MemberReg :=
  match s.findMemberReg (s.loginOf client) target with
  | .ok (some entry) =>
      (s.member.cell entry).filter fun member => member.suspend == 0
  | _ => none

def MemberReg.mayOp (member : MemberReg) : Bool :=
  decide (sCOp ≤ member.level)

/-- `client_p->user->mask`. -/
def Clients.maskOf (s : Clients) (client : ClientId) : CString :=
  match s.userOf client with
  | .ok user => user.mask
  | .error _ => []

def ChanAct.inTurn {α : Type} (now : Int) (turn : α → Chans → List ChanAct) :
    List α → Chans → List ChanAct
  | [], _ => []
  | value :: rest, s =>
      let acts := turn value s
      acts ++ inTurn now turn rest (ChanAct.execAll now acts s)

namespace ChanServ

variable (serv : ChanServ)

def openReg (now : Int) (s : Chans) (chptr : ChannelId) :
    Option (ChanRegId × ChanReg) :=
  match s.channel.cell chptr with
  | none => none
  | some ch =>
      match serv.regs.findChannelReg ch.name with
      | none => none
      | some target =>
          if serv.regs.lockedOut now target then none
          else (serv.regs.chan.cell target).map fun reg => (target, reg)

theorem openReg_target {now : Int} {s : Chans} {chptr : ChannelId}
    {ch : Channel} {target : ChanRegId} {reg : ChanReg}
    (there : s.channel.cell chptr = some ch)
    (opened : serv.openReg now s chptr = some (target, reg)) :
    serv.regs.findChannelReg ch.name = some target := by
  unfold openReg at opened
  rw [there] at opened
  dsimp only at opened
  split at opened
  · cases opened
  · rename_i found same
    split at opened
    · cases opened
    · obtain ⟨_, -, pair⟩ := Option.map_eq_some_iff.mp opened
      rw [same, (Prod.mk.inj pair).1]

def accessOf (s : Chans) (target : ChanRegId) (mptr : MemberId) :
    Option MemberReg :=
  match s.member.cell mptr with
  | some member => serv.regs.access member.clientP target
  | none => none

/-- `h_chanserv_mode_op`. -/
def hChanservModeOp (now : Int) (s : Chans) (chptr : ChannelId)
    (members : List MemberId) : List ChanAct :=
  match serv.openReg now s chptr with
  | none => []
  | some (target, reg) =>
      if reg.flags.has csFlagsNoops then members.map .deop
      else if reg.flags.has csFlagsRestrictops then
        (members.filter fun mptr =>
          !(serv.accessOf s target mptr).any MemberReg.mayOp).map .deop
      else []

/-- `h_chanserv_mode_voice`. -/
def hChanservModeVoice (now : Int) (s : Chans) (chptr : ChannelId)
    (members : List MemberId) : List ChanAct :=
  match serv.openReg now s chptr with
  | none => []
  | some (_, reg) =>
      if reg.flags.has csFlagsNovoices then members.map .devoice else []

/-- `h_chanserv_mode_simple`. -/
def hChanservModeSimple (now : Int) (s : Chans) (chptr : ChannelId) :
    List ChanAct :=
  match serv.openReg now s chptr with
  | none => []
  | some (target, _) => [.enforce chptr (serv.settings target).emode]

/-- `h_chanserv_mode_ban`. -/
def hChanservModeBan (now : Int) (s : Chans) (chptr : ChannelId)
    (banlist : List CString) : List ChanAct :=
  match serv.openReg now s chptr with
  | none => []
  | some (_, reg) =>
      if reg.flags.has csFlagsNouserbans then banlist.map (.delBan chptr)
      else []

/-- `enable_inhabit` on a channel that is there. -/
def enableInhabit (env : Env) (now : Int) (target : ChanRegId)
    (chptr : ChannelId) (autojoin : Bool) (s : Chans) : List ChanAct :=
  match s.channel.cell chptr with
  | none => []
  | some ch =>
      let settings := serv.settings target
      let mode :=
        if settings.emode.mode ≠ 0#32 then settings.emode else settings.cmode
      .join serv.self (serv.regs.chanName target)
          (min settings.tsinfo ch.tsinfo) (some mode) autojoin ::
        if !settings.topic.isEmpty && !irccmp settings.topic ch.topic then
          [.setTopic chptr (strlcpy (env.topicLen + 1) settings.topic)
            (strlcpy (State.nickUserHostLen env + 1) env.myName) now]
        else []

def inhabitIfAlone (env : Env) (now : Int) (target : ChanRegId)
    (chptr : ChannelId) (s : Chans) : List ChanAct :=
  if (s.usersOf chptr).length = 1 then
    serv.enableInhabit env now target chptr false s
  else []

def lacksBan (s : Chans) (chptr : ChannelId) (mask : CString) : Bool :=
  match s.channel.cell chptr with
  | some ch => !ch.bans.any fun ban => irccmp ban mask
  | none => false

def kickBanned (env : Env) (now : Int) (target : ChanRegId)
    (chptr : ChannelId) (mptr : MemberId) (member : Chmember) (ban : BanReg)
    (s : Chans) : List ChanAct :=
  (if member.isOpped then [.deop mptr] else []) ++
    (if lacksBan s chptr ban.mask then [.addBan chptr ban.mask] else []) ++
    serv.inhabitIfAlone env now target chptr s ++ [.kick mptr]

def refusesOp (reg : ChanReg) (access : Option MemberReg)
    (member : Chmember) : Bool :=
  member.isOpped && (reg.flags.has csFlagsNoops ||
    reg.flags.has csFlagsRestrictops && !access.any MemberReg.mayOp)

def refusesVoice (reg : ChanReg) (member : Chmember) : Bool :=
  member.isVoiced && reg.flags.has csFlagsNovoices

def grant (reg : ChanReg) (access : Option MemberReg) (mptr : MemberId)
    (member : Chmember) : List ChanAct :=
  match access with
  | none => []
  | some entry =>
      if entry.flags.has csMemberAutoop && entry.mayOp &&
          !reg.flags.has csFlagsNoops then
        [.op mptr]
      else if entry.flags.has csMemberAutovoice && !member.isVoiced &&
          !reg.flags.has csFlagsNovoices then
        [.voice mptr]
      else []

def isInhabiting (s : Chans) (chptr : ChannelId) : Bool :=
  match s.channel.cell chptr with
  | some ch => Dlink.find serv.self ch.services
  | none => false

/-- What comes of a member that no ban keeps out: the op, the voice and what he
has access to, each in the channels that the last one left. -/
inductive Welcome where
  | op
  | voice
  | access
  deriving DecidableEq, Repr

def welcome (env : Env) (now : Int) (target : ChanRegId) (reg : ChanReg)
    (chptr : ChannelId) (mptr : MemberId) (member : Chmember)
    (access : Option MemberReg) : Welcome → Chans → List ChanAct
  | .op, s =>
      if refusesOp reg access member then
        serv.inhabitIfAlone env now target chptr s ++ [.deop mptr]
      else []
  | .voice, s =>
      if refusesVoice reg member then
        serv.inhabitIfAlone env now target chptr s ++ [.devoice mptr]
      else if reg.flags.has csFlagsAutojoin && !serv.isInhabiting s chptr then
        serv.enableInhabit env now target chptr true s
      else []
  | .access, _ =>
      if refusesVoice reg member || member.isOpped then []
      else grant reg access mptr member

/-- One member of `h_chanserv_join`. -/
def joinTurn (env : Env) (now : Int) (clients : Clients)
    (target : ChanRegId) (reg : ChanReg) (chptr : ChannelId)
    (mptr : MemberId) (s : Chans) : List ChanAct :=
  match s.member.cell mptr, s.channel.cell chptr with
  | some member, some ch =>
      let access := serv.regs.access member.clientP target
      match Regs.hitBan now (access.map MemberReg.level)
          (clients.maskOf member.clientP) ch.excepts reg.bans with
      | some ban =>
          serv.kickBanned env now target chptr mptr member ban s
      | none =>
          ChanAct.inTurn now
            (serv.welcome env now target reg chptr mptr member access)
            [.op, .voice, .access] s
  | _, _ => []

/-- `h_chanserv_join`, as far as it is about the network. -/
def hChanservJoin (env : Env) (now : Int) (clients : Clients) (s : Chans)
    (chptr : ChannelId) (members : List MemberId) : List ChanAct :=
  match serv.openReg now s chptr with
  | none => []
  | some (target, reg) =>
      ChanAct.inTurn now (serv.joinTurn env now clients target reg chptr)
        members s

def env (now : Int) (base : Env) : Env :=
  { base with
    hooks :=
      { base.hooks with
        channelJoin := fun s chptr members =>
          serv.hChanservJoin base now s.clients s.chans chptr members
        modeOp := fun s chptr members =>
          serv.hChanservModeOp now s.chans chptr members
        modeVoice := fun s chptr members =>
          serv.hChanservModeVoice now s.chans chptr members
        modeSimple := fun s chptr =>
          serv.hChanservModeSimple now s.chans chptr
        modeBan := fun s chptr banlist =>
          serv.hChanservModeBan now s.chans chptr banlist } }

end ChanServ

end RatboxServices
