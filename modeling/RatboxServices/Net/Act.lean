import RatboxServices.Net.State

namespace RatboxServices

/-! What the services do to channels: in hook callbacks, in their commands and
in their timers. -/

namespace Chans

/-- `otakeover` and `takeover_channel`, behind the checks of their callers: a
TS of at least two and a user in the channel. -/
def takeover (serviceP : ClientId) (chptr : ChannelId)
    (invite removeExceptions removeInvex : Bool) (now : Int) (s : Chans) :
    Chans :=
  match s.channel.cell chptr with
  | none => s
  | some ch =>
      if decide (ch.tsinfo < 2) || ch.users.isEmpty then s
      else
        let s := (s.partService serviceP ch.name).1
        let s := s.removeOurSimpleModes chptr
        let s := s.removeOurOvModes chptr
        let s := s.removeOurBans chptr true removeExceptions removeInvex
        let bits :=
          if invite then [modeTopic, modeNoexternal, modeInviteonly]
          else [modeTopic, modeNoexternal]
        let s := s.modifyChannel chptr fun ch =>
          { ch with
            mode := { ch.mode with mode := Word.ofBits bits }
            tsinfo := ch.tsinfo - 1 }
        match s.channel.cell chptr with
        | none => s
        | some ch =>
            s.joinService serviceP ch.name ch.tsinfo none false now

end Chans

namespace Chmode

/-- The bits of `emode` that the mode does not have in common with it. -/
def missing (emode mode : Chmode) : Word :=
  emode.mode &&& ~~~(mode.mode &&& emode.mode)

/-- `h_chanserv_mode_simple` on a registered channel that is not suspended. -/
def enforce (emode mode : Chmode) : Chmode :=
  if emode.mode = 0#32 then mode
  else
    { mode := mode.mode ||| missing emode mode
      limit :=
        if emode.limit ≠ 0 ∧ mode.limit ≠ emode.limit then emode.limit
        else mode.limit
      key :=
        if !emode.key.isEmpty && !CString.strcasecmp mode.key emode.key then
          CString.strlcpy (keyLen + 1) emode.key
        else mode.key }

/-- `h_chanserv_sjoin_lowerts`. While our burst is still to come and a service
is in the channel, only what is missing is set. -/
def enforceLowerts (bursting : Bool) (emode mode : Chmode) : Chmode :=
  if emode.mode = 0#32 ∨ mode.mode &&& emode.mode = emode.mode then mode
  else if bursting then
    { mode := mode.mode ||| missing emode mode
      limit :=
        if (missing emode mode).has modeLimit then emode.limit
        else mode.limit
      key :=
        if (missing emode mode).has modeKey then
          CString.strlcpy (keyLen + 1) emode.key
        else mode.key }
  else enforce emode mode

end Chmode

inductive ChanAct where
  | op (mptr : MemberId)
  | deop (mptr : MemberId)
  | voice (mptr : MemberId)
  | devoice (mptr : MemberId)
  | kick (mptr : MemberId)
  | enforce (chptr : ChannelId) (emode : Chmode)
  | setTopic (chptr : ChannelId) (topic topicwho : CString) (tsinfo : Int)
  | addBan (chptr : ChannelId) (mask : CString)
  | delBan (chptr : ChannelId) (mask : CString)
  | removeModes (chptr : ChannelId)
  | removeOv (chptr : ChannelId)
  | removeBans (chptr : ChannelId) (bans exceptions invex : Bool)
  | join (serviceP : ClientId) (chname : CString) (tsinfo : Int)
      (mode : Option Chmode) (override : Bool)
  | part (serviceP : ClientId) (chname : CString)
  | takeover (serviceP : ClientId) (chptr : ChannelId)
      (invite exceptions invex : Bool)
  deriving DecidableEq, Repr

namespace ChanAct

def exec (now : Int) (s : Chans) : ChanAct → Chans
  | .op mptr => s.opChmember mptr
  | .deop mptr => s.deopChmember mptr
  | .voice mptr => s.voiceChmember mptr
  | .devoice mptr => s.devoiceChmember mptr
  | .kick mptr => s.delChmember mptr
  | .enforce chptr emode =>
      s.modifyChannel chptr fun ch =>
        { ch with mode := .enforce emode ch.mode }
  | .setTopic chptr topic topicwho tsinfo =>
      s.modifyChannel chptr fun ch =>
        { ch with
          topic := topic
          topicwho := topicwho
          topicTsinfo := tsinfo }
  | .addBan chptr mask =>
      s.modifyChannel chptr fun ch =>
        { ch with bans := Dlink.add mask ch.bans }
  | .delBan chptr mask =>
      s.modifyChannel chptr fun ch =>
        { ch with bans := Dlink.findDestroy mask ch.bans }
  | .removeModes chptr => s.removeOurSimpleModes chptr
  | .removeOv chptr => s.removeOurOvModes chptr
  | .removeBans chptr bans exceptions invex =>
      s.removeOurBans chptr bans exceptions invex
  | .join serviceP chname tsinfo mode override =>
      s.joinService serviceP chname tsinfo mode override now
  | .part serviceP chname => (s.partService serviceP chname).1
  | .takeover serviceP chptr invite exceptions invex =>
      s.takeover serviceP chptr invite exceptions invex now

def execAll (now : Int) (acts : List ChanAct) (s : Chans) : Chans :=
  acts.foldl (exec now) s

end ChanAct

/-- The callbacks of the services on the hooks of the protocol handlers. What
they decide depends on registrations that are no part of this state, so they
are arbitrary functions of it. `HOOK_CHANNEL_SJOIN_LOWERTS` only ever enforces
the modes of a registration: its callbacks run while the channel may still be
empty. -/
structure Hooks where
  channelJoin : State → ChannelId → List MemberId → List ChanAct
  modeOp : State → ChannelId → List MemberId → List ChanAct
  modeVoice : State → ChannelId → List MemberId → List ChanAct
  modeSimple : State → ChannelId → List ChanAct
  modeBan : State → ChannelId → List CString → List ChanAct
  sjoinLowerts : State → ChannelId → Option Chmode
  channelTopic : State → ChannelId → List ChanAct

structure CommandEntry where
  operonly : Bool
  operflags : BitVec 64
  userreg : Bool
  minparc : Nat

/-- What a service's command does to the network: it acts on channels, it
issues a mode string through `parse_full_mode`, and it may exit a user or a
server it looked up. -/
inductive ServiceAct where
  | chan (act : ChanAct)
  | issueMode (serviceP : ClientId) (chptr : ChannelId)
      (allowSslonly : Bool) (parv : List CString)
  | exit (name : CString)

structure Env where
  wild : Clients.Wild
  hooks : Hooks
  stringToArray : CString → List CString
  nickLen : Nat
  topicLen : Nat
  myName : CString
  maskMatch : CString → CString → Bool
  clientFloodTime : Int
  clientFloodMax : Int
  clientFloodMaxIgnore : Int
  findIgnore : User → Bool
  findConfOper : User → Option CString → Option ConfOper
  crypt : CString → CString → CString
  burstLogin : State → ClientId → CString → Option CString
  activeJupes : List CString
  helpPenalty : ClientId → ClientId → List CString → Int
  findCommand : ClientId → CString → Option CommandEntry
  runCommand : State → ClientId → ClientId → CString → List CString →
    List ServiceAct × Int

end RatboxServices
