import RatboxServices.Net.ModeLines
import RatboxServices.Serv.ChanEnforce

namespace RatboxServices

open CString

/-! The kicks of ChanServ: the lines that `kickbuild_finish` sends, and the two
loops that call `kickbuild_add`. -/

/-- `kickbuild_list` and `kickbuildr_list`. -/
structure Kickbuild where
  nicks : List CString := []
  reasons : List CString := []

namespace Kickbuild

/-- `kickbuild_add`. -/
def add (nick reason : CString) (build : Kickbuild) : Kickbuild :=
  ⟨Dlink.addTail nick build.nicks, Dlink.addTail reason build.reasons⟩

def kickLine (source name nick reason : CString) : CString :=
  ":".toList ++ source ++ " KICK ".toList ++ name ++ " ".toList ++ nick ++
    " :".toList ++ reason

/-- The loop of `kickbuild_finish`, which takes the head of the reasons for
every nick; `none` where there is no head. -/
def finishLoop (source name : CString) :
    List CString → List CString → Option (List CString)
  | [], _ => some []
  | _ :: _, [] => none
  | nick :: nicks, reason :: reasons =>
      (finishLoop source name nicks reasons).map
        (kickLine source name nick reason :: ·)

/-- `kickbuild_finish`. -/
def finish (source name : CString) (build : Kickbuild) :
    Option (List CString) :=
  finishLoop source name build.nicks build.reasons

theorem foldl_add {κ : Type} (nick reason : κ → CString) (kicks : List κ)
    (build : Kickbuild) :
    kicks.foldl (fun build kick => add (nick kick) (reason kick) build) build =
      ⟨build.nicks ++ kicks.map nick, build.reasons ++ kicks.map reason⟩ := by
  induction kicks generalizing build with
  | nil => simp
  | cons kick rest ih =>
      rw [List.foldl_cons, ih]
      simp [add, Dlink.addTail]

theorem finishLoop_map (source name : CString) {κ : Type}
    (nick reason : κ → CString) (kicks : List κ) :
    finishLoop source name (kicks.map nick) (kicks.map reason) =
      some (kicks.map fun kick =>
        kickLine source name (nick kick) (reason kick)) := by
  induction kicks with
  | nil => rfl
  | cons kick rest ih =>
      rw [List.map_cons, List.map_cons, finishLoop, ih]
      rfl

theorem finish_added (source name : CString) {κ : Type}
    (nick reason : κ → CString) (kicks : List κ) :
    (kicks.foldl (fun build kick => add (nick kick) (reason kick) build)
        {}).finish source name =
      some (kicks.map fun kick =>
        kickLine source name (nick kick) (reason kick)) := by
  rw [foldl_add, finish, List.nil_append, List.nil_append]
  exact finishLoop_map source name nick reason kicks

end Kickbuild

/-- `UID` of a client. -/
def Clients.uidText (s : Clients) (client : ClientId) : CString :=
  match s.client.cell client with
  | some client => if client.uid.isEmpty then client.name else client.uid
  | none => []

/-- The `reason` of `s_chan_addban`. -/
def AddbanArgs.reason (parv : AddbanArgs) : CString :=
  joinReason [] parv.fields.2.2

def AddbanArgs.typed (parv : AddbanArgs) (ban : BanReg) : BanReg :=
  { ban with mask := parv.mask }

/-- One call of `kickbuild_add`, with the ban it is for and the member that is
kicked next. -/
structure Kick where
  mptr : MemberId
  clientP : ClientId
  ban : BanReg
  reason : CString
  deriving DecidableEq, Repr

namespace ChanAct

def kicked : ChanAct → Option MemberId
  | .kick mptr => some mptr
  | _ => none

def kicksInTurn (now : Int) (turn : MemberId → Chans → List ChanAct)
    (pick : MemberId → Chans → Option Kick) : List MemberId → Chans → List Kick
  | [], _ => []
  | mptr :: rest, s =>
      (pick mptr s).toList ++
        kicksInTurn now turn pick rest (execAll now (turn mptr s) s)

end ChanAct

namespace ChanServ

variable (serv : ChanServ)

/-- Whom `h_chanserv_join` kicks, and for which ban. -/
def joinPick (now : Int) (clients : Clients) (target : ChanRegId)
    (reg : ChanReg) (chptr : ChannelId) (mptr : MemberId) (s : Chans) :
    Option Kick :=
  match s.member.cell mptr, s.channel.cell chptr with
  | some member, some ch =>
      (Regs.hitBan now
        ((serv.regs.access member.clientP target).map MemberReg.level)
        (clients.maskOf member.clientP) ch.excepts reg.bans).map
        fun ban => ⟨mptr, member.clientP, ban, ban.reason⟩
  | _, _ => none

/-- The kicks of `h_chanserv_join`. -/
def joinKicks (env : Env) (now : Int) (clients : Clients) (s : Chans)
    (chptr : ChannelId) (members : List MemberId) : List Kick :=
  match serv.openReg now s chptr with
  | none => []
  | some (target, reg) =>
      ChanAct.kicksInTurn now (serv.joinTurn env now clients target reg chptr)
        (serv.joinPick now clients target reg chptr) members s

/-- Whom the loop of `s_chan_addban` kicks for the new ban. The reason is the
one that was given, and not the one of the ban. -/
def addbanPick (clients : Clients) (target : ChanRegId) (chptr : ChannelId)
    (ban : BanReg) (reason : CString) (mptr : MemberId) (s : Chans) :
    Option Kick :=
  match s.member.cell mptr, s.channel.cell chptr with
  | some member, some ch =>
      if !match_ ban.mask (clients.maskOf member.clientP) then none
      else if findExempt ch.excepts (clients.maskOf member.clientP) then none
      else if (serv.regs.access member.clientP target).any
          fun entry => decide (ban.level ≤ entry.level) then none
      else some ⟨mptr, member.clientP, ban, reason⟩
  | _, _ => none

def addbanTurn (env : Env) (now : Int) (clients : Clients)
    (target : ChanRegId) (chptr : ChannelId) (ban : BanReg) (reason : CString)
    (mptr : MemberId) (s : Chans) : List ChanAct :=
  match serv.addbanPick clients target chptr ban reason mptr s,
    s.member.cell mptr with
  | some _, some member =>
      (if member.isOpped then [.deop mptr] else []) ++
        serv.inhabitIfAlone env now target chptr s ++ [.kick mptr]
  | _, _ => []

/-- The kicks of `s_chan_addban`, unless the mask is set already. -/
def addbanKicks (env : Env) (now : Int) (clients : Clients)
    (target : ChanRegId) (chptr : ChannelId) (ban : BanReg) (reason : CString)
    (s : Chans) : List Kick :=
  if lacksBan s chptr ban.mask then
    ChanAct.kicksInTurn now
      (serv.addbanTurn env now clients target chptr ban reason)
      (serv.addbanPick clients target chptr ban reason) (s.usersOf chptr) s
  else []

/-- The enforcement at the end of `s_chan_addban`. The mask is set if it
matched somebody. -/
def addbanActs (env : Env) (now : Int) (clients : Clients)
    (target : ChanRegId) (chptr : ChannelId) (ban : BanReg) (reason : CString)
    (s : Chans) : List ChanAct :=
  if lacksBan s chptr ban.mask then
    let acts := ChanAct.inTurn now
      (serv.addbanTurn env now clients target chptr ban reason)
      (s.usersOf chptr) s
    let after := ChanAct.execAll now acts s
    if (serv.addbanKicks env now clients target chptr ban reason s).isEmpty ||
        !lacksBan after chptr ban.mask then acts
    else acts ++ [.addBan chptr ban.mask]
  else []

/-- What `kickbuild_finish` sends of the kicks. -/
def kickLines (s : State) (chptr : ChannelId) (kicks : List Kick) :
    Option (List CString) :=
  (kicks.foldl (fun build kick =>
    Kickbuild.add (s.clients.uidText kick.clientP) kick.reason build)
      {}).finish
      (s.modeSource serv.self) (s.chans.channel.get chptr).name

end ChanServ

end RatboxServices
