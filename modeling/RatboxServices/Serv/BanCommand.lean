import RatboxServices.Net.BanList
import RatboxServices.Net.Cidr
import RatboxServices.Serv.ChanKick

namespace RatboxServices

open CString
open Chans (StaysTidy SetsNew)

/-! What the commands of ChanServ on bans and the timer of `s_chanserv.c` do to
the list of a channel on the network. -/

def sCClear : Int := 140

inductive MaskStop where
  | net (reason : Stop)
  | reg (reason : RegStop)
  | cidr (reason : OutOfBuffer)
  deriving DecidableEq, Repr

def takeBan (mask : CString) (bans : List CString) : List CString :=
  bans.eraseP fun ban => irccmp ban mask

/-- The loop of `s_chan_unban`: what `hit` finds goes. -/
def unbanLoop (hit : CString → Except OutOfBuffer Bool) :
    List CString → Except OutOfBuffer (List CString)
  | [] => .ok []
  | ban :: rest => do
      let found ← hit ban
      let kept ← unbanLoop hit rest
      .ok (if found then kept else ban :: kept)

theorem unbanLoop_sublist (hit : CString → Except OutOfBuffer Bool)
    (bans : List CString) :
    Ensures (fun kept => kept.Sublist bans) (unbanLoop hit bans) := by
  induction bans with
  | nil => exact List.Sublist.refl []
  | cons ban rest ih =>
      refine Ensures.bind fun found _ => Outcome.bind ih fun kept part => ?_
      cases found with
      | true => exact part.cons ban
      | false => exact part.cons_cons ban

namespace ChanServ

variable (serv : ChanServ)

/-- The registration and the entry that `verify_member_reg_name` finds for a
user. -/
def verifyReg (now : Int) (client : ClientId) (chname : CString)
    (level : Int) : Option (ChanRegId × MemberReg) :=
  match serv.regs.findChannelReg chname with
  | none => none
  | some target =>
      if serv.regs.lockedOut now target then none
      else
        match serv.regs.access client target with
        | none => none
        | some entry =>
            if entry.level < level then none else some (target, entry)

def onBans (chptr : Option ChannelId)
    (change : List CString → List CString) (s : Chans) : Chans :=
  match chptr with
  | none => s
  | some chptr => s.modifyChannel chptr fun ch =>
      { ch with bans := change ch.bans }

/-- `s_chan_addban`. What it enforces is the mask as it was typed. -/
def sChanAddban (conf : ServConfig) (env : Env) (now : Int)
    (client : ClientId) (parv : AddbanArgs) (s : State) :
    Except MaskStop Chans :=
  match serv.verifyReg now client parv.chname sCRegular with
  | none => .ok s.chans
  | some (target, caller) =>
      let bans := serv.regs.bansOf target
      let chptr := s.chans.findChannel parv.chname
      if conf.cmaxBans < bans.length then
        -- the error is about `chptr->name`
        if chptr.isNone then .error (.reg .nullChannel) else .ok s.chans
      else
        match Regs.newBan conf now caller.level
            (serv.regs.userName caller.userReg) parv bans, chptr with
        | some ban, some chptr =>
            .ok (ChanAct.execAll now
              (serv.addbanActs env now s.clients target chptr
                (parv.typed ban) parv.reason s.chans) s.chans)
        | _, _ => .ok s.chans

/-- `s_chan_delban`. -/
def sChanDelban (now : Int) (client : ClientId) (chname mask : CString)
    (s : Chans) : Chans :=
  match serv.verifyReg now client chname sCRegular with
  | none => s
  | some (target, caller) =>
      match findBanReg (serv.regs.bansOf target) mask with
      | none => s
      | some ban =>
          if caller.level < ban.level then s
          else onBans (s.findChannel chname) (takeBan mask) s

/-- `s_chan_clearbans`. The masks of registered bans stay. -/
def sChanClearbans (now : Int) (client : ClientId) (chname : CString)
    (s : Chans) : Chans :=
  match serv.verifyReg now client chname sCClear with
  | none => s
  | some (target, _) =>
      onBans (s.findChannel (serv.regs.chanName target))
        (fun bans => bans.filter fun mask =>
          (serv.regs.bansOf target).any fun ban => irccmp mask ban.mask) s

/-- `ipmask` of `s_chan_unban`. -/
def ipMask (env : Env) (client : Client) (user : User) : Option CString :=
  user.ip.map fun ip => strlcpy (State.nickUserHostLen env + 1)
    (userMask client.name user.username ip)

def bansUser (nickLen : Nat) (mask : CString) (ipmask : Option CString)
    (ban : CString) : Except OutOfBuffer Bool :=
  if match_ ban mask then .ok true
  else
    match ipmask with
    | none => .ok false
    | some ipmask =>
        if '/' ∈ ban then Cidr.matchCidr nickLen ban ipmask else .ok false

/-- `s_chan_unban`. -/
def sChanUnban (env : Env) (now : Int) (clientP : ClientId)
    (chname : CString) (s : State) : Except MaskStop Chans :=
  match serv.verifyReg now clientP chname sCRegular with
  | none => .ok s.chans
  | some (target, caller) =>
      match s.chans.findChannel (serv.regs.chanName target) with
      | none => .ok s.chans
      | some chptr =>
          if caller.bants == serv.regs.bantsOf target then .ok s.chans
          else do
            let client ← (s.clients.deref clientP).mapError .net
            let user ← (s.clients.userOf clientP).mapError .net
            let ch := s.chans.channel.get chptr
            if findExempt ch.excepts user.mask then .ok s.chans
            else
              let bans ← (unbanLoop (bansUser env.nickLen user.mask
                (ipMask env client user)) ch.bans).mapError .cidr
              .ok (onBans (some chptr) (fun _ => bans) s.chans)

/-- One registration of `e_chanserv_expireban`. -/
def expireBans (now : Int) (s : Chans) (target : ChanRegId) : Chans :=
  let chptr := s.findChannel (serv.regs.chanName target)
  ((serv.regs.bansOf target).filter (BanReg.expired now)).foldl
    (fun s ban => onBans chptr (takeBan ban.mask) s) s

/-- `e_chanserv_expireban`. -/
def eChanservExpireban (now : Int) (s : Chans) : Chans :=
  (hashWalk (fun target => hashChannel (serv.regs.chanName target))
    serv.regs.chanTable).foldl (serv.expireBans now) s

variable {serv} {env : Env} {now : Int} {clients : Clients}
  {target : ChanRegId} {chptr : ChannelId} {s : Chans}

theorem onBans_tidy {chptr : Option ChannelId}
    {change : List CString → List CString}
    (part : ∀ bans, (change bans).Sublist bans) :
    StaysTidy s (onBans chptr change s) := by
  cases chptr with
  | none => exact .refl s
  | some chptr =>
      exact .sheds chptr fun ch =>
        ⟨part ch.bans, List.Sublist.refl _, List.Sublist.refl _⟩

theorem sChanDelban_tidy {client : ClientId} {chname mask : CString} :
    StaysTidy s (serv.sChanDelban now client chname mask s) := by
  unfold sChanDelban
  split
  · exact .refl s
  · split
    · exact .refl s
    · split
      · exact .refl s
      · exact onBans_tidy fun _ => List.eraseP_sublist

theorem sChanClearbans_tidy {client : ClientId} {chname : CString} :
    StaysTidy s (serv.sChanClearbans now client chname s) := by
  unfold sChanClearbans
  split
  · exact .refl s
  · exact onBans_tidy fun _ => List.filter_sublist

theorem sChanUnban_tidy {client : ClientId} {chname : CString}
    {state : State} :
    Ensures (StaysTidy state.chans)
      (serv.sChanUnban env now client chname state) := by
  unfold sChanUnban
  split
  · exact StaysTidy.refl _
  · split
    · exact StaysTidy.refl _
    · rename_i chptr found
      split
      · exact StaysTidy.refl _
      · refine Ensures.bind fun client _ => ?_
        refine Ensures.bind fun user _ => ?_
        dsimp only
        split
        · exact StaysTidy.refl _
        · refine Outcome.bind (unbanLoop_sublist _ _).mapError
            fun bans part => ?_
          refine StaysTidy.modifyChannel fun ch used tidy => ?_
          rw [Heap.get_eq used] at part
          exact tidy.sheds ⟨part, List.Sublist.refl _, List.Sublist.refl _⟩

theorem expireBans_tidy : StaysTidy s (serv.expireBans now s target) := by
  unfold expireBans
  dsimp only
  generalize s.findChannel (serv.regs.chanName target) = chptr
  induction (serv.regs.bansOf target).filter (BanReg.expired now)
      generalizing s with
  | nil => exact .refl s
  | cons ban rest ih =>
      have gone : StaysTidy s (onBans chptr (takeBan ban.mask) s) :=
        onBans_tidy fun _ => List.eraseP_sublist
      exact gone.trans ih

theorem eChanservExpireban_tidy :
    StaysTidy s (serv.eChanservExpireban now s) := by
  unfold eChanservExpireban
  generalize hashWalk _ _ = targets
  induction targets generalizing s with
  | nil => exact .refl s
  | cons target rest ih => exact expireBans_tidy.trans ih

end ChanServ

end RatboxServices
