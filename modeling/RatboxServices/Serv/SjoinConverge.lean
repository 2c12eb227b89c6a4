import RatboxServices.Net.SjoinMerge
import RatboxServices.Serv.KickRun

namespace RatboxServices

open CString
open Chans (SameNames Standing)
open ChanAct (execAll execAll_append)
open State (mergeMode)

/-! Two `SJOIN`s with the TS of a channel, with the callback of ChanServ behind
each. Unless it joins with an older TS, the callback leaves TS and modes. -/

namespace ChanAct

/-- An act that takes nobody out of a channel, and by which no service joins
with an older TS that it insists on. -/
def Mild (name : CString) (tsinfo : Int) : ChanAct → Prop
  | .join _ chname stamp _ override =>
      chname = name ∧ (override = true → tsinfo ≤ stamp)
  | act => act.Calm name

theorem Mild.calm {name : CString} {tsinfo : Int} {act : ChanAct}
    (mild : act.Mild name tsinfo) : act.Calm name := by
  cases act <;> first | exact mild | exact mild.1

end ChanAct

namespace Chans.Standing

variable {s : Chans} {chptr : ChannelId} {old : Channel} {mode : Chmode}
  {name : CString}

theorem joinService (standing : Standing chptr old mode s)
    (named : irccmp old.name name = true) (serviceP : ClientId)
    {stamp : Int} (asked : Option Chmode) {override : Bool}
    (older : override = true → old.tsinfo ≤ stamp) (now : Int) :
    Standing chptr old mode
      (s.joinService serviceP name stamp asked override now) := by
  obtain ⟨ch, used, -, stamped, -⟩ := standing.there
  unfold Chans.joinService
  rw [standing.found name named]
  dsimp only
  rw [used]
  dsimp only
  split
  · exact standing
  · have keeps : (override && decide (stamp < ch.tsinfo)) = false := by
      cases override with
      | false => rfl
      | true =>
          have later := older rfl
          simp
          omega
    rw [keeps]
    exact standing.modify rfl rfl (fun _ => ⟨rfl, rfl, rfl⟩)
      (fun _ _ listed => List.mem_cons_of_mem _ listed) fun _ => id

theorem restatus (standing : Standing chptr old mode s) {t : Chans}
    {mptr : MemberId} (step : s.Restatus mptr t) :
    Standing chptr old mode t := by
  cases step with
  | same => exact standing
  | other =>
      exact standing.modify rfl rfl (fun _ => ⟨rfl, rfl, rfl⟩)
        (fun _ _ => id) fun _ => id

theorem exec (standing : Standing chptr old mode s)
    (named : irccmp old.name name = true) {act : ChanAct}
    (mild : act.Mild name old.tsinfo) (now : Int) :
    Standing chptr old mode (act.exec now s) := by
  cases act with
  | op mptr => exact standing.restatus (.op mptr)
  | deop mptr => exact standing.restatus (.deop mptr)
  | voice mptr => exact ⟨standing.found, standing.there⟩
  | devoice mptr => exact ⟨standing.found, standing.there⟩
  | setTopic target topic topicwho tsinfo =>
      exact standing.modify rfl rfl (fun _ => ⟨rfl, rfl, rfl⟩)
        (fun _ _ => id) fun _ => id
  | addBan target mask =>
      exact standing.modify rfl rfl (fun _ => ⟨rfl, rfl, rfl⟩)
        (fun _ _ => id) fun _ => id
  | join serviceP chname stamp asked override =>
      obtain ⟨rfl, older⟩ := mild
      exact standing.joinService named serviceP asked older now
  | _ => cases mild

theorem execAll (standing : Standing chptr old mode s)
    (named : irccmp old.name name = true) {acts : List ChanAct}
    (mild : ∀ act ∈ acts, act.Mild name old.tsinfo) (now : Int) :
    Standing chptr old mode (ChanAct.execAll now acts s) := by
  induction acts generalizing s with
  | nil => exact standing
  | cons act rest ih =>
      exact ih (standing.exec named (mild act List.mem_cons_self) now)
        fun other listed => mild other (List.mem_cons_of_mem _ listed)

theorem kick {serv : ChanServ} {m : MemberId} {member : Chmember}
    (standing : Standing chptr old mode s)
    (inv : Chans.Inv (fun _ => True) s)
    (used : s.member.cell m = some member) (seated : member.chptr = chptr)
    (safe : s.usersOf chptr = [m] → serv.isInhabiting s chptr = true) :
    Standing chptr old mode (s.delChmember m) := by
  obtain ⟨names, -⟩ := ChanServ.delChmember_stays inv used seated safe
  obtain ⟨ch, there, kept, drops⟩ :=
    ChanServ.delChmember_drops inv used seated safe
  subst seated
  have dropped : (s.delChmember m).channel.cell member.chptr =
      some (Chans.Inv.delist m member.isOpped ch) := by
    simp [drops, Chans.Inv.dropChmember, there]
  obtain ⟨face, had, -, -, modes, -⟩ := standing.there
  rw [there, Option.some.injEq] at had
  subst had
  rw [ChanServ.delist_kept] at dropped
  refine standing.of_cell names there dropped rfl modes (fun _ => id) ?_
  intro _
  by_contra none_
  exact kept (by simpa using none_)

end Chans.Standing

namespace ChanServ

variable {serv : ChanServ} {env : Env} {now : Int} {clients : Clients}
  {chptr : ChannelId} {old : Channel} {mode : Chmode} {s t : Chans}

def overrides (serv : ChanServ) (now : Int) (s : Chans) (chptr : ChannelId) :
    Bool :=
  match serv.openReg now s chptr, s.channel.cell chptr with
  | some (target, reg), some ch =>
      reg.flags.has csFlagsAutojoin && !serv.isInhabiting s chptr &&
        decide ((serv.settings target).tsinfo < ch.tsinfo)
  | _, _ => false

theorem openReg_congr (now : Int) {before after : Channel}
    (here : s.channel.cell chptr = some before)
    (there : t.channel.cell chptr = some after)
    (name : after.name = before.name) :
    serv.openReg now t chptr = serv.openReg now s chptr := by
  unfold openReg
  rw [here, there]
  dsimp only
  rw [name]

/-- Where ChanServ would join now, it would not have done so with an older TS
before. -/
theorem le_of_not_overrides {ch : Channel} {target : ChanRegId}
    {reg : ChanReg} (used : s.channel.cell chptr = some ch)
    (kept : serv.overrides now s chptr = false)
    (standing : Standing chptr ch mode t)
    (opened : serv.openReg now t chptr = some (target, reg))
    (auto : reg.flags.has csFlagsAutojoin = true)
    (outside : serv.isInhabiting t chptr = false) :
    ch.tsinfo ≤ (serv.settings target).tsinfo := by
  obtain ⟨face, there, name, -, -, services, -⟩ := standing.there
  rw [openReg_congr now used there name] at opened
  have absent : serv.isInhabiting s chptr = false := by
    simp only [isInhabiting, there, used] at outside ⊢
    exact decide_eq_false fun listed =>
      of_decide_eq_false outside (services _ listed)
  rw [overrides, opened, used] at kept
  simpa [auto, absent] using kept

section Loop

variable {target : ChanRegId} {reg : ChanReg}

structure Steady (serv : ChanServ) (chptr : ChannelId) (old : Channel)
    (mode : Chmode) (target : ChanRegId) (reg : ChanReg) (s : Chans) :
    Prop where
  inv : Chans.Inv (fun _ => True) s
  standing : Standing chptr old mode s
  joins : reg.flags.has csFlagsAutojoin = true →
    serv.isInhabiting s chptr = false →
      old.tsinfo ≤ (serv.settings target).tsinfo

namespace Steady

variable {name : CString}

theorem execAll (steady : serv.Steady chptr old mode target reg s)
    (named : irccmp old.name name = true) {acts : List ChanAct}
    (mild : ∀ act ∈ acts, act.Mild name old.tsinfo) (now : Int) :
    serv.Steady chptr old mode target reg (ChanAct.execAll now acts s) := by
  have calm : serv.Undisturbed chptr s (ChanAct.execAll now acts s) :=
    (calm_along serv now (steady.standing.found name named)
      fun act listed => (mild act listed).calm).1
  refine ⟨steady.inv.execAll now acts, steady.standing.execAll named mild now,
    fun auto outside => steady.joins auto ?_⟩
  cases inside : serv.isInhabiting s chptr with
  | false => rfl
  | true => rw [calm.inhabits inside] at outside; cases outside

theorem enableInhabit_mild (steady : serv.Steady chptr old mode target reg s)
    {autojoin : Bool}
    (older : autojoin = true → old.tsinfo ≤ (serv.settings target).tsinfo) :
    ∀ act ∈ serv.enableInhabit env now target chptr autojoin s,
      act.Mild (serv.regs.chanName target) old.tsinfo := by
  obtain ⟨ch, used, -, stamp, -⟩ := steady.standing.there
  refine enableInhabit_forall (fun other asked there => ?_) fun _ _ => trivial
  rw [used, Option.some.injEq] at there
  exact ⟨rfl, fun auto => le_min (older auto) (there ▸ stamp.ge)⟩

theorem inhabitIfAlone_mild
    (steady : serv.Steady chptr old mode target reg s) :
    ∀ act ∈ serv.inhabitIfAlone env now target chptr s,
      act.Mild (serv.regs.chanName target) old.tsinfo :=
  inhabitIfAlone_forall (steady.enableInhabit_mild fun auto => by cases auto)

theorem welcomes (steady : serv.Steady chptr old mode target reg s)
    (named : irccmp old.name (serv.regs.chanName target) = true)
    {m : MemberId} {member : Chmember} {access : Option MemberReg}
    (stages : List Welcome) :
    serv.Steady chptr old mode target reg (ChanAct.execAll now
      (ChanAct.inTurn now
        (serv.welcome env now target reg chptr m member access) stages s)
        s) := by
  induction stages generalizing s with
  | nil => exact steady
  | cons stage rest ih =>
      rw [ChanAct.execAll_inTurn_cons]
      have mild : ∀ act ∈
          serv.welcome env now target reg chptr m member access stage s,
          act.Mild (serv.regs.chanName target) old.tsinfo :=
        welcome_forall ⟨trivial, trivial, trivial, trivial⟩
          steady.inhabitIfAlone_mild
          (fun auto outside => steady.enableInhabit_mild fun _ =>
            steady.joins auto outside) stage
      exact ih (steady.execAll named mild now)

/-- A member that is banned goes, behind the service if nobody else is left. -/
theorem kickBanned (steady : serv.Steady chptr old mode target reg s)
    (named : irccmp old.name (serv.regs.chanName target) = true)
    {m : MemberId} {member : Chmember}
    (used : s.member.cell m = some member) (seated : member.chptr = chptr)
    (ban : BanReg) :
    serv.Steady chptr old mode target reg (ChanAct.execAll now
      (serv.kickBanned env now target chptr m member ban s) s) := by
  obtain ⟨calm, joins⟩ := inhabitIfAlone_calm env now s chptr
    (rfl : serv.regs.chanName target = _)
  have mild : ∀ act ∈ (if member.isOpped then [ChanAct.deop m] else []) ++
      (if lacksBan s chptr ban.mask then [.addBan chptr ban.mask] else []) ++
      serv.inhabitIfAlone env now target chptr s,
      act.Mild (serv.regs.chanName target) old.tsinfo :=
    beforeKick_forall trivial trivial steady.inhabitIfAlone_mild
  have found := steady.standing.found _ named
  have before := steady.execAll named mild now
  unfold ChanServ.kickBanned
  rw [execAll_append]
  generalize acts : (if member.isOpped then [ChanAct.deop m] else []) ++
      (if lacksBan s chptr ban.mask then [.addBan chptr ban.mask] else []) ++
      serv.inhabitIfAlone env now target chptr s = first at mild before ⊢
  have calm : ∀ act ∈ first, act.Calm (serv.regs.chanName target) :=
    fun act listed => (mild act listed).calm
  have undisturbed := (calm_along serv now found calm).1
  obtain ⟨other, there, inside⟩ : ∃ other,
      (ChanAct.execAll now first s).member.cell m = some other ∧
        other.chptr = chptr := by
    refine (before.inv.mem_usersOf chptr m).mp ?_
    rw [undisturbed.users]
    exact (steady.inv.mem_usersOf chptr m).mpr ⟨member, used, seated⟩
  have safe : (ChanAct.execAll now first s).usersOf chptr = [m] →
      serv.isInhabiting (ChanAct.execAll now first s) chptr = true := by
    intro alone
    rw [undisturbed.users] at alone
    obtain ⟨tsinfo, asked, override, listed⟩ := joins (by rw [alone]; rfl)
    refine inhabits_of_join serv now found calm
      (?_ : ChanAct.join serv.self _ tsinfo asked override ∈ first)
    rw [← acts]
    exact List.mem_append_right _ listed
  refine ⟨before.inv.execAll now [.kick m],
    before.standing.kick before.inv there inside safe, fun auto outside =>
      before.joins auto ?_⟩
  obtain ⟨ch, cell, -, drops⟩ :=
    delChmember_drops before.inv there inside safe
  have after : (ChanAct.execAll now [.kick m]
      (ChanAct.execAll now first s)).channel.cell chptr =
      some (Chans.Inv.delist m other.isOpped ch) := by
    subst inside
    show ((ChanAct.execAll now first s).delChmember m).channel.cell _ = _
    rw [drops]
    simp [Chans.Inv.dropChmember, cell]
  rw [isInhabiting, after, delist_kept] at outside
  rw [isInhabiting, cell]
  exact outside

theorem joinTurn (steady : serv.Steady chptr old mode target reg s)
    (named : irccmp old.name (serv.regs.chanName target) = true)
    {m : MemberId} (seated : ∀ member, s.member.cell m = some member →
      member.chptr = chptr) :
    serv.Steady chptr old mode target reg (ChanAct.execAll now
      (serv.joinTurn env now clients target reg chptr m s) s) := by
  unfold ChanServ.joinTurn
  split
  · rename_i member ch used there
    dsimp only
    split
    · exact steady.kickBanned named used (seated member used) _
    · exact steady.welcomes named _
  · exact steady

theorem joinTurns (steady : serv.Steady chptr old mode target reg s)
    (named : irccmp old.name (serv.regs.chanName target) = true)
    {members : List MemberId}
    (seated : ∀ m ∈ members, ∀ member, s.member.cell m = some member →
      member.chptr = chptr) :
    serv.Steady chptr old mode target reg (ChanAct.execAll now
      (ChanAct.inTurn now (serv.joinTurn env now clients target reg chptr)
        members s) s) := by
  induction members generalizing s with
  | nil => exact steady
  | cons first rest ih =>
      rw [ChanAct.execAll_inTurn_cons]
      refine ih (steady.joinTurn named (seated first List.mem_cons_self)) ?_
      intro m listed after used
      obtain ⟨before, was, seat⟩ := execAll_seat
        (fun act among => (joinTurn_about act among).narrow) used
      exact seat.chptr.trans
        (seated m (List.mem_cons_of_mem _ listed) before was)

end Steady

theorem hChanservJoin_standing {ch : Channel} {members : List MemberId}
    (used : s.channel.cell chptr = some ch)
    (kept : serv.overrides now s chptr = false)
    (inv : Chans.Inv (fun _ => True) t) (standing : Standing chptr ch mode t)
    (seated : ∀ m ∈ members, ∀ member, t.member.cell m = some member →
      member.chptr = chptr) :
    Standing chptr ch mode (ChanAct.execAll now
      (serv.hChanservJoin env now clients t chptr members) t) := by
  unfold hChanservJoin
  cases opened : serv.openReg now t chptr with
  | none => exact standing
  | some found =>
      obtain ⟨target, reg⟩ := found
      obtain ⟨face, there, name, -⟩ := standing.there
      have registered := serv.openReg_target there opened
      have named : irccmp ch.name (serv.regs.chanName target) = true := by
        have same := List.find?_some registered
        unfold Regs.chanNamed at same
        cases reg_ : serv.regs.chan.cell target with
        | none => rw [reg_] at same; cases same
        | some entry =>
            rw [reg_, name] at same
            rw [Regs.chanName, reg_]
            have equal := (Bool.and_eq_true _ _ ▸ same).2
            exact irccmp_iff.mpr (irccmp_iff.mp equal).symm
      have steady : serv.Steady chptr ch mode target reg t :=
        ⟨inv, standing, fun auto outside =>
          le_of_not_overrides used kept standing opened auto outside⟩
      exact (steady.joinTurns named seated).standing

end Loop

end ChanServ

namespace State

variable {serv : ChanServ} {base : Env} {s start_ : State}
  {chptr : ChannelId} {ch : Channel} {mode : Chmode}

/-- A message that is read as an `SJOIN` for the channel with its TS, and behind
which ChanServ does not join with an older one. -/
structure Merges (serv : ChanServ) (s : State) (chptr : ChannelId)
    (ch : Channel) (message : SjoinMessage) (call : SjoinCall) : Prop where
  read : s.sjoinCall message.clientP message.parv = some call
  named : irccmp ch.name call.target.chname = true
  stamp : call.target.newts = ch.tsinfo
  kept : serv.overrides message.now s.chans chptr = false

theorem Merges.step (used : start_.chans.channel.cell chptr = some ch)
    (nonzero : ch.tsinfo ≠ 0) {message : SjoinMessage} {call : SjoinCall}
    (merges : Merges serv start_ chptr ch message call)
    (inv : Chans.Inv (fun _ => True) s.chans)
    (clients : s.clients = start_.clients)
    (standing : Standing chptr ch mode s.chans) :
    ∃ t, s.cSjoin (serv.env message.now base) message.now message.clientP
        message.parv = .ok t ∧ t.clients = start_.clients ∧
      Chans.Inv (fun _ => True) t.chans ∧
      Standing chptr ch (mergeMode call.newmode mode) t.chans := by
  have read : s.sjoinCall message.clientP message.parv = some call :=
    (sjoinCall_congr clients _ _).trans merges.read
  have handled : s.cSjoin (serv.env message.now base) message.now
      message.clientP message.parv =
      .ok (call.apply s (serv.env message.now base) message.now) :=
    cSjoin_of_call read
  obtain ⟨here, same, lowered, entered⟩ := SjoinCall.entered_standing nonzero
    standing merges.named merges.stamp (serv.env message.now base)
  refine ⟨_, handled, ?_, inv_of_moves
    ((cSjoin_moves fun _ _ => trivial).of_ok handled) inv, ?_⟩
  · rw [SjoinCall.apply_eq, here, entered.not_isFree]
    split <;> exact same.trans clients
  · rw [SjoinCall.apply_eq, here, entered.not_isFree]
    have spec := call.entered_spec inv (serv.env message.now base)
    split
    · exact lowered
    · refine ChanServ.hChanservJoin_standing used merges.kept spec.pending.1
        entered fun m among member found => ?_
      obtain ⟨outside, -⟩ | ⟨-, inside⟩ := spec.cells m member found
      · exact absurd among outside
      · exact inside.trans here

theorem modesAfter_eq (used : start_.chans.channel.cell chptr = some ch)
    (nonzero : ch.tsinfo ≠ 0) (inv : Chans.Inv (fun _ => True) s.chans)
    (clients : s.clients = start_.clients)
    (standing : Standing chptr ch mode s.chans)
    {messages : List (SjoinMessage × SjoinCall)}
    (merges : ∀ pair ∈ messages, Merges serv start_ chptr ch pair.1 pair.2) :
    modesAfter (fun now => serv.env now base) chptr s
        (messages.map Prod.fst) =
      some ((messages.map fun pair => pair.2.newmode).foldl
        (fun mode new => mergeMode new mode) mode) := by
  induction messages generalizing s mode with
  | nil =>
      obtain ⟨face, there, -, -, modes, -⟩ := standing.there
      simp [modesAfter, there, modes]
  | cons pair rest ih =>
      obtain ⟨t, heard, same, kept, after⟩ :=
        Merges.step used nonzero (merges pair List.mem_cons_self) inv clients
          standing
      have later := ih kept same after fun other given =>
        merges other (List.mem_cons_of_mem _ given)
      rw [List.map_cons, List.map_cons, List.foldl_cons, ← later]
      unfold modesAfter
      rw [run, heard]
      rfl

/-- When two `SJOIN`s with the TS of a channel converge, where ChanServ joins
behind none of them with an older one. -/
theorem sjoin_converges_iff (serv : ChanServ) (base : Env)
    (inv : Chans.Inv (fun _ => True) s.chans) (named : s.chans.Named)
    (used : s.chans.channel.cell chptr = some ch) (nonzero : ch.tsinfo ≠ 0)
    (occupied : ch.users ≠ [] ∨ ch.services ≠ [])
    {first second : SjoinMessage} {callFirst callSecond : SjoinCall}
    (isFirst : SjoinFor s chptr ch.tsinfo first.clientP first.parv callFirst)
    (isSecond :
      SjoinFor s chptr ch.tsinfo second.clientP second.parv callSecond)
    (kept : ∀ message ∈ [first, second],
      serv.overrides message.now s.chans chptr = false) :
    Converges (fun now => serv.env now base) chptr s ch.mode first second ↔
      Chmode.Compatible ch.mode callFirst.newmode callSecond.newmode := by
  rw [← Chmode.mergesWell_iff (sjoinCall_parsed isFirst.read)
    (sjoinCall_parsed isSecond.read)]
  have standing : Standing chptr ch ch.mode s.chans :=
    ⟨fun name same => ChanServ.findChannel_of_irccmp named used same,
      ch, used, rfl, rfl, rfl, fun _ => id, occupied⟩
  have nameOf : ∀ {name : CString}, s.chans.findChannel name = some chptr →
      irccmp ch.name name = true := by
    intro name found
    obtain ⟨face, there, same⟩ := Chans.exists_of_findChannel found
    rw [used, Option.some.injEq] at there
    exact there ▸ same
  have after : ∀ messages : List (SjoinMessage × SjoinCall),
      (∀ pair ∈ messages,
        pair ∈ [(first, callFirst), (second, callSecond)]) →
      modesAfter (fun now => serv.env now base) chptr s
          (messages.map Prod.fst) =
        some ((messages.map fun pair => pair.2.newmode).foldl
          (fun mode new => mergeMode new mode) ch.mode) := by
    intro messages given
    refine modesAfter_eq used nonzero inv rfl standing fun pair inside => ?_
    rcases List.mem_pair.mp (given pair inside) with rfl | rfl
    · exact ⟨isFirst.read, nameOf isFirst.named, isFirst.stamp,
        kept first (by simp)⟩
    · exact ⟨isSecond.read, nameOf isSecond.named, isSecond.stamp,
        kept second (by simp)⟩
  have inOrder := after [(first, callFirst), (second, callSecond)]
    (fun _ given => given)
  have swapped := after [(second, callSecond), (first, callFirst)]
    (fun _ given => by simpa [or_comm] using given)
  have aloneFirst := after [(first, callFirst)] (by simp)
  have aloneSecond := after [(second, callSecond)] (by simp)
  have twiceFirst := after [(first, callFirst), (first, callFirst)] (by simp)
  have twiceSecond :=
    after [(second, callSecond), (second, callSecond)] (by simp)
  simp only [List.map_cons, List.map_nil, List.foldl_cons, List.foldl_nil]
    at inOrder swapped aloneFirst aloneSecond twiceFirst twiceSecond
  constructor
  · intro converges
    refine ⟨?_, fun new _ => Chmode.merge_twice new ch.mode, ?_, ?_⟩
    · have same := converges.commutes
      rw [inOrder, swapped] at same
      exact Option.some.inj same
    · intro new given
      rcases List.mem_pair.mp given with rfl | rfl
      · exact fun unset had => converges.key first (by simp) _ isFirst.read
          unset had _ aloneFirst
      · exact fun unset had => converges.key second (by simp) _ isSecond.read
          unset had _ aloneSecond
    · intro new given
      rcases List.mem_pair.mp given with rfl | rfl
      · exact fun unset had => converges.limit first (by simp) _ isFirst.read
          unset had _ aloneFirst
      · exact fun unset had => converges.limit second (by simp) _ isSecond.read
          unset had _ aloneSecond
  · intro well
    refine ⟨?_, ?_, ?_, ?_⟩
    · rw [inOrder, swapped, well.commutes]
    · intro message given
      rcases List.mem_pair.mp given with rfl | rfl
      · rw [twiceFirst, aloneFirst, Chmode.merge_twice]
      · rw [twiceSecond, aloneSecond, Chmode.merge_twice]
    · intro message given call read unset had mode merged
      rcases List.mem_pair.mp given with rfl | rfl
      · rw [isFirst.read, Option.mem_some_iff] at read
        rw [aloneFirst, Option.mem_some_iff] at merged
        subst read merged
        exact well.key _ (by simp) unset had
      · rw [isSecond.read, Option.mem_some_iff] at read
        rw [aloneSecond, Option.mem_some_iff] at merged
        subst read merged
        exact well.key _ (by simp) unset had
    · intro message given call read unset had mode merged
      rcases List.mem_pair.mp given with rfl | rfl
      · rw [isFirst.read, Option.mem_some_iff] at read
        rw [aloneFirst, Option.mem_some_iff] at merged
        subst read merged
        exact well.limit _ (by simp) unset had
      · rw [isSecond.read, Option.mem_some_iff] at read
        rw [aloneSecond, Option.mem_some_iff] at merged
        subst read merged
        exact well.limit _ (by simp) unset had

/-- `#a` with a key, and two users, of whom one is in it. -/
def keyedChannel : List Event :=
  linkUp
    [⟨":0AB UID one 1 5 +i u h 0 0ABAAAAAA :g".toList, false⟩,
      ⟨":0AB UID two 1 5 +i u h 0 0ABAAAAAB :g".toList, false⟩,
      ⟨":0AB SJOIN 5 #a +k secret :@0ABAAAAAA".toList, false⟩]

def sjoinWith (modes : List CString) : SjoinMessage :=
  ⟨2, 1, ["5".toList, "#a".toList] ++ modes ++ ["0ABAAAAAB".toList]⟩

/-- ChanServ joins `#a` with the TS that it has. -/
def autojoinChannel : ChanServ where
  regs := { Regs.empty with
    chan := Heap.empty.alloc
      { name := "#a".toList, flags := Word.ofBits [csFlagsAutojoin] }
    chanTable := [0] }
  settings := fun _ => ⟨5, [], {}, {}⟩
  self := 0

theorem sjoin_converges_otherKey :
    ∃ s ch, run (step .quiet) (start [chanserv] 300) keyedChannel = .ok s ∧
      s.chans.channel.cell 0 = some ch ∧
      ch.mode = ⟨.ofBits [modeKey], "secret".toList, 0⟩ ∧
      Converges (fun now => autojoinChannel.env now .quiet) 0 s ch.mode
        (sjoinWith ["+kl".toList, "hidden".toList, "10".toList])
        (sjoinWith ["+kn".toList, "zebra".toList]) := by
  have observed : (run (step .quiet) (start [chanserv] 300)
      keyedChannel).toOption.map (fun s =>
        ((s.chans.channel.cell 0).map fun ch =>
          (ch.mode, ch.tsinfo, ch.users), s.chans.findChannel "#a".toList,
          s.chans.channel.next, autojoinChannel.overrides 2 s.chans 0)) =
      some (some (⟨.ofBits [modeKey], "secret".toList, 0⟩, 5, [0]),
        some 0, 1, false) := by
    decide +kernel
  have calls : (run (step .quiet) (start [chanserv] 300)
      keyedChannel).toOption.map (fun s =>
        (s.sjoinCall 1 (sjoinWith
          ["+kl".toList, "hidden".toList, "10".toList]).parv,
        s.sjoinCall 1 (sjoinWith ["+kn".toList, "zebra".toList]).parv)) =
      some (some ⟨⟨"#a".toList, 5⟩, true,
          ⟨.ofBits [modeKey, modeLimit], "hidden".toList, 10⟩,
          ["0ABAAAAAB".toList]⟩,
        some ⟨⟨"#a".toList, 5⟩, true,
          ⟨.ofBits [modeKey, modeNoexternal], "zebra".toList, 0⟩,
          ["0ABAAAAAB".toList]⟩) := by
    decide +kernel
  obtain ⟨s, reached, seen⟩ := Except.exists_of_observed observed
  rw [reached] at calls
  obtain ⟨readFirst, readSecond⟩ := Prod.mk.inj (Option.some.inj calls)
  simp only [Prod.mk.injEq] at seen
  obtain ⟨there, found, next, kept⟩ := seen
  obtain ⟨ch, used, seen⟩ := Option.map_eq_some_iff.mp there
  simp only [Prod.mk.injEq] at seen
  obtain ⟨mode, stamp, users⟩ := seen
  have inv : Chans.Inv (fun _ => True) s.chans :=
    run_preserves (fun t => Chans.Inv (fun _ => True) t.chans)
      (fun _ event _ inv stepped => (step_inv
        (meetsLines_of_forall (fun _ _ _ _ => trivial) _ event) inv).of_ok
          stepped) Chans.Inv.empty reached
  have only : ∀ c ch, s.chans.channel.cell c = some ch → c = 0 := by
    intro c ch there
    have below := Heap.lt_next there
    omega
  have named : s.chans.Named := by
    refine ⟨inv.table, fun c d ch other first second _ => ?_⟩
    rw [only c ch first, only d other second]
  refine ⟨s, ch, reached, used, mode, ?_⟩
  refine (sjoin_converges_iff autojoinChannel .quiet inv named used (by omega)
    (Or.inl (by simp [users])) ⟨readFirst, found, stamp.symm⟩
    ⟨readSecond, found, stamp.symm⟩ ?_).mpr ?_
  · intro message listed
    obtain rfl | rfl := List.mem_pair.mp listed
    · exact kept
    · exact kept
  · rw [mode]
    exact ⟨by decide, by decide, by decide, by decide⟩

/-- A message without a key removes the key, and the other brings it back. -/
theorem not_sjoin_converges_noKey :
    ∃ s ch, run (step .quiet) (start [chanserv] 300) keyedChannel = .ok s ∧
      s.chans.channel.cell 0 = some ch ∧
      ch.mode = ⟨.ofBits [modeKey], "secret".toList, 0⟩ ∧
      modesAfter (fun now => autojoinChannel.env now .quiet) 0 s
          [sjoinWith ["+n".toList]] =
        some ⟨.ofBits [modeKey, modeNoexternal], [], 0⟩ ∧
      ¬Converges (fun now => autojoinChannel.env now .quiet) 0 s ch.mode
        (sjoinWith ["+k".toList, "key".toList]) (sjoinWith ["+n".toList]) := by
  have observed : (run (step .quiet) (start [chanserv] 300)
      keyedChannel).toOption.map (fun s =>
        ((s.chans.channel.cell 0).map Channel.mode,
        modesAfter (fun now => autojoinChannel.env now .quiet) 0 s
          [sjoinWith ["+n".toList]],
        modesAfter (fun now => autojoinChannel.env now .quiet) 0 s
          [sjoinWith ["+k".toList, "key".toList], sjoinWith ["+n".toList]],
        modesAfter (fun now => autojoinChannel.env now .quiet) 0 s
          [sjoinWith ["+n".toList],
            sjoinWith ["+k".toList, "key".toList]])) =
      some (some ⟨.ofBits [modeKey], "secret".toList, 0⟩,
        some ⟨.ofBits [modeKey, modeNoexternal], [], 0⟩,
        some ⟨.ofBits [modeKey, modeNoexternal], [], 0⟩,
        some ⟨.ofBits [modeKey, modeNoexternal], "key".toList, 0⟩) := by
    decide +kernel
  obtain ⟨s, reached, seen⟩ := Except.exists_of_observed observed
  simp only [Prod.mk.injEq] at seen
  obtain ⟨there, alone, inOrder, swapped⟩ := seen
  obtain ⟨ch, used, mode⟩ := Option.map_eq_some_iff.mp there
  refine ⟨s, ch, reached, used, mode, alone, fun converges => ?_⟩
  have same := converges.commutes
  rw [inOrder, swapped] at same
  revert same
  decide

end State

end RatboxServices
