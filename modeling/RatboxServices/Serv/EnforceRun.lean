import RatboxServices.Net.ListRun
import RatboxServices.Serv.ChanEnforce

namespace RatboxServices

open CString
open Chmember (SameSeat Demoted)
open Chans (Faces Inv NoneRaised Marks)

/-! What the messages about channels leave of a registered channel, after the
callbacks of ChanServ. -/

namespace ChanServ

structure Watches (serv : ChanServ) (now : Int) (name : CString)
    (target : ChanRegId) (reg : ChanReg) : Prop where
  named : serv.regs.findChannelReg name = some target
  cell : serv.regs.chan.cell target = some reg
  opened : serv.regs.lockedOut now target = false

structure Checked (serv : ChanServ) (now : Int) (clients : Clients)
    (target : ChanRegId) (reg : ChanReg) (excepts : List CString) (s : Chans)
    (m : MemberId) (after : Chmember) : Prop where
  opped : after.isOpped = true →
    (∃ before, s.member.cell m = some before ∧ SameSeat before after ∧
      before.isOpped = true) ∨
    (reg.flags.has csFlagsNoops = false ∧
      (reg.flags.has csFlagsRestrictops = true →
        (serv.regs.access after.clientP target).any MemberReg.mayOp = true))
  voiced : after.isVoiced = true →
    (∃ before, s.member.cell m = some before ∧ SameSeat before after ∧
      before.isVoiced = true) ∨
    reg.flags.has csFlagsNovoices = false
  bans : (∃ before, s.member.cell m = some before ∧ SameSeat before after) ∨
    ∀ ban ∈ reg.bans, ban.expired now = false →
      match_ ban.mask (clients.maskOf after.clientP) = true →
      ((serv.regs.access after.clientP target).any fun entry =>
        decide (ban.level ≤ entry.level)) = false →
      findExempt excepts (clients.maskOf after.clientP) = true

def Checks (serv : ChanServ) (now : Int) (clients : Clients) (s t : Chans) :
    Prop :=
  ∀ m after ch target reg, t.member.cell m = some after →
    t.channel.cell after.chptr = some ch →
    serv.Watches now ch.name target reg →
    serv.Checked now clients target reg ch.excepts s m after

variable {serv : ChanServ} {env : Env} {now : Int} {clients : Clients}
  {target : ChanRegId} {reg : ChanReg} {chptr : ChannelId} {s t : Chans}

theorem openReg_of_watches {ch : Channel}
    (there : s.channel.cell chptr = some ch)
    (watches : serv.Watches now ch.name target reg) :
    serv.openReg now s chptr = some (target, reg) := by
  simp [openReg, there, watches.named, watches.opened, watches.cell]

theorem checked_of_demoted {excepts : List CString} {m : MemberId}
    {before after : Chmember} (was : s.member.cell m = some before)
    (demoted : Demoted before after) :
    serv.Checked now clients target reg excepts s m after where
  opped := fun opped =>
    Or.inl ⟨before, was, demoted.toSameSeat, demoted.opped opped⟩
  voiced := fun voiced =>
    Or.inl ⟨before, was, demoted.toSameSeat, demoted.voiced voiced⟩
  bans := Or.inl ⟨before, was, demoted.toSameSeat⟩

theorem checks_of_raised (raised : NoneRaised s t) :
    serv.Checks now clients s t := by
  intro m after ch target reg used there watches
  obtain ⟨before, was, demoted⟩ := raised m after used
  exact checked_of_demoted was demoted

theorem Obeys.checked {excepts : List CString} {m : MemberId}
    {after : Chmember}
    (obeys : Obeys serv now clients target reg excepts after) :
    serv.Checked now clients target reg excepts s m after :=
  ⟨fun opped => Or.inr (obeys.opped opped),
    fun voiced => Or.inr (obeys.voiced voiced), Or.inr obeys.bans⟩

theorem hChanservJoin_checks {joined : List MemberId} {r : Chans}
    (entered : State.Entered chptr r joined s) :
    serv.Checks now clients r (ChanAct.execAll now
      (serv.hChanservJoin env now clients s chptr joined) s) := by
  intro m after ch target reg used there watches
  obtain ⟨face, was⟩ := Option.isSome_iff_exists.mp entered.pending.2
  have known : chptr < s.channel.next := Heap.lt_next was
  have inside : ∀ m ∈ joined, ∀ member, s.member.cell m = some member →
      member.chptr = chptr := by
    intro m among member found
    obtain ⟨outside, -⟩ | ⟨-, here⟩ := entered.cells m member found
    · exact absurd among outside
    · exact here
  unfold hChanservJoin at used there
  split at used
  · rename_i closed
    rw [closed] at there
    replace used : s.member.cell m = some after := used
    replace there : s.channel.cell after.chptr = some ch := there
    obtain ⟨-, before, was, demoted⟩ | ⟨-, here⟩ := entered.cells m after used
    · exact checked_of_demoted was demoted
    · rw [here] at there
      rw [openReg_of_watches there watches] at closed
      cases closed
  · rename_i other registered opened
    rw [opened] at there
    dsimp only at used there
    by_cases among : m ∈ joined
    · have same : ∀ ch, s.channel.cell chptr = some ch →
          ch.excepts = face.excepts := by
        intro ch there
        rw [was, Option.some.injEq] at there
        rw [there]
      obtain ⟨here, obeys⟩ := joinTurns_obey entered.pending.1 known same
        inside entered.nodup among used
      have faces : Faces s (ChanAct.execAll now (ChanAct.inTurn now
          (serv.joinTurn env now clients other registered chptr) joined s)
          s) := by
        refine ChanAct.execAll_faces fun act listed => ?_
        obtain ⟨_, -, about⟩ := joinTurns_about act listed
        exact about.narrow
      rw [here] at there
      obtain ⟨old, old_, kept⟩ := faces.kept chptr ch known there
      rw [was, Option.some.injEq] at old_
      subst old_
      rw [kept.name] at watches
      rw [openReg_of_watches was watches, Option.some.injEq,
        Prod.mk.injEq] at opened
      obtain ⟨rfl, rfl⟩ := opened
      rw [kept.excepts]
      exact obeys.checked
    · rw [joinTurns_other among] at used
      obtain ⟨-, before, was, demoted⟩ | ⟨member, -⟩ :=
        entered.cells m after used
      · exact checked_of_demoted was demoted
      · exact absurd member among

theorem freeChannel_checks {joined : List MemberId} {r : Chans}
    (entered : State.Entered chptr r joined s) :
    serv.Checks now clients r (s.freeChannel chptr) := by
  intro m after ch target reg used there watches
  obtain ⟨face, was⟩ := Option.isSome_iff_exists.mp entered.pending.2
  simp only [Chans.freeChannel, was] at used there
  obtain ⟨-, before, was, demoted⟩ | ⟨-, here⟩ := entered.cells m after used
  · exact checked_of_demoted was demoted
  · replace there : (s.channel.free chptr).cell after.chptr = some ch := there
    rw [here, Heap.free_cell, if_pos rfl] at there
    cases there

section Chmode

variable {parv : List CString} {sourceP : ClientId}

theorem hChanservModeOp_lowers (members : List MemberId) :
    ∀ act ∈ serv.hChanservModeOp now s chptr members,
      act.lowers = true ∧ act.isNarrow = true := by
  intro act among
  unfold hChanservModeOp at among
  split at among
  · cases among
  · split at among
    · obtain ⟨mptr, -, rfl⟩ := List.mem_map.mp among
      exact ⟨rfl, rfl⟩
    · split at among
      · obtain ⟨mptr, -, rfl⟩ := List.mem_map.mp among
        exact ⟨rfl, rfl⟩
      · cases among

theorem hChanservModeVoice_lowers (members : List MemberId) :
    ∀ act ∈ serv.hChanservModeVoice now s chptr members,
      act.lowers = true ∧ act.isNarrow = true := by
  intro act among
  unfold hChanservModeVoice at among
  split at among
  · cases among
  · split at among
    · obtain ⟨mptr, -, rfl⟩ := List.mem_map.mp among
      exact ⟨rfl, rfl⟩
    · cases among

theorem hChanservModeSimple_lowers :
    ∀ act ∈ serv.hChanservModeSimple now s chptr,
      act.lowers = true ∧ act.isNarrow = true := by
  intro act among
  unfold hChanservModeSimple at among
  split at among
  · cases among
  · rw [List.mem_singleton] at among
    subst among
    exact ⟨rfl, rfl⟩

theorem hChanservModeBan_lowers (banlist : List CString) :
    ∀ act ∈ serv.hChanservModeBan now s chptr banlist,
      act.lowers = true ∧ act.isNarrow = true := by
  intro act among
  unfold hChanservModeBan at among
  split at among
  · cases among
  · split at among
    · obtain ⟨mask, -, rfl⟩ := List.mem_map.mp among
      exact ⟨rfl, rfl⟩
    · cases among

theorem hChanservModeOp_allows {ch : Channel} {members : List MemberId}
    {m : MemberId} {before after : Chmember}
    (there : s.channel.cell chptr = some ch)
    (watches : serv.Watches now ch.name target reg) (listed : m ∈ members)
    (was : s.member.cell m = some before)
    (used : (ChanAct.execAll now
      (serv.hChanservModeOp now s chptr members) s).member.cell m = some after)
    (opped : after.isOpped = true) :
    reg.flags.has csFlagsNoops = false ∧
      (reg.flags.has csFlagsRestrictops = true →
        (serv.regs.access before.clientP target).any MemberReg.mayOp =
          true) := by
  have taken : ∀ {targets : List MemberId}, m ∈ targets →
      (ChanAct.execAll now (targets.map .deop) s).member.cell m =
        some after → False := by
    intro targets among gone
    have unopped := ChanAct.execAll_deop among gone
    rw [unopped] at opped
    cases opped
  unfold hChanservModeOp at used
  rw [openReg_of_watches there watches] at used
  dsimp only at used
  split at used
  · exact (taken listed used).elim
  · rename_i noops
    refine ⟨Bool.eq_false_iff.mpr noops, fun restricted => ?_⟩
    rw [if_pos restricted] at used
    by_contra refused
    refine taken (List.mem_filter.mpr ⟨listed, ?_⟩) used
    simpa [accessOf, was] using refused

theorem hChanservModeVoice_allows {ch : Channel} {members : List MemberId}
    {m : MemberId} {after : Chmember}
    (there : s.channel.cell chptr = some ch)
    (watches : serv.Watches now ch.name target reg) (listed : m ∈ members)
    (used : (ChanAct.execAll now
      (serv.hChanservModeVoice now s chptr members) s).member.cell m =
        some after)
    (voiced : after.isVoiced = true) :
    reg.flags.has csFlagsNovoices = false := by
  unfold hChanservModeVoice at used
  rw [openReg_of_watches there watches] at used
  dsimp only at used
  split at used
  · have unvoiced := ChanAct.execAll_devoice listed used
    rw [unvoiced] at voiced
    cases voiced
  · rename_i novoices
    exact Bool.eq_false_iff.mpr novoices

theorem callHook_lowers {s : State} {called : Bool} {acts : List ChanAct}
    (each : ∀ act ∈ acts, act.lowers = true ∧ act.isNarrow = true) :
    NoneRaised s.chans (s.callHook now called acts).chans ∧
      Faces s.chans (s.callHook now called acts).chans := by
  unfold State.callHook
  split
  · exact ⟨ChanAct.execAll_lowers fun act among => (each act among).1,
      ChanAct.execAll_faces fun act among => (each act among).2⟩
  · exact ⟨.refl _, .refl _⟩

theorem callHook_of_mem {s : State} {list : List MemberId} {m : MemberId}
    (among : m ∈ list) (acts : List ChanAct) :
    (s.callHook now (!list.isEmpty) acts).chans =
      ChanAct.execAll now acts s.chans := by
  have some_ : list.isEmpty = false := by
    cases list with
    | nil => cases among
    | cons first rest => rfl
  unfold State.callHook
  rw [some_]
  rfl

theorem handleChmode_checks {s : State} {base : Env}
    (inv : Inv (fun _ => True) s.chans) :
    serv.Checks now clients s.chans
      (s.handleChmode (serv.env now base) now chptr sourceP parv).chans := by
  rw [State.handleChmode_eq]
  have marks : Marks chptr s.chans (s.parsed chptr parv).chans :=
    Chans.parseFullMode_marks inv (s.receivedCall chptr) parv
  have owned : Inv (fun _ => True) (s.parsed chptr parv).chans :=
    inv.parseFullMode (s.receivedCall chptr) parv
  have op : _ ∧ Faces (s.parsed chptr parv).chans
      (s.beforeVoice (serv.env now base) now chptr parv).chans :=
    callHook_lowers (hChanservModeOp_lowers _)
  have voice : _ ∧ Faces
      (s.beforeVoice (serv.env now base) now chptr parv).chans
      (s.beforeSimple (serv.env now base) now chptr parv).chans :=
    callHook_lowers (hChanservModeVoice_lowers _)
  have simple : _ ∧ Faces
      (s.beforeSimple (serv.env now base) now chptr parv).chans
      (s.beforeBan (serv.env now base) now chptr parv).chans :=
    callHook_lowers hChanservModeSimple_lowers
  have ban : _ ∧ Faces
      (s.beforeBan (serv.env now base) now chptr parv).chans
      ((s.beforeBan (serv.env now base) now chptr parv).tellBanned
        (serv.env now base) now chptr sourceP).chans :=
    callHook_lowers (hChanservModeBan_lowers _)
  intro m after ch target reg used there watches
  obtain ⟨third, usedThird, lastDemoted⟩ := (simple.1.trans ban.1) m after used
  obtain ⟨second, usedSecond, voiceDemoted⟩ := voice.1 m third usedThird
  obtain ⟨first, usedFirst, opDemoted⟩ := op.1 m second usedSecond
  obtain ⟨before, was, seat, oppedBy, voicedBy⟩ := marks m first usedFirst
  have later : Demoted second after := voiceDemoted.trans lastDemoted
  have seated : SameSeat first after :=
    (opDemoted.trans later).toSameSeat
  obtain ⟨face, had⟩ := owned.owner m first usedFirst
  rw [seated.chptr] at there
  have known : first.chptr < (s.parsed chptr parv).chans.channel.next :=
    Heap.lt_next had
  have afterVoice := simple.2.trans ban.2
  have afterOp := voice.2.trans afterVoice
  refine ⟨fun opped => ?_, fun voiced => ?_,
    Or.inl ⟨before, was, seat.trans seated⟩⟩
  · have held := (opDemoted.trans later).opped opped
    obtain ⟨already, -⟩ | ⟨among, here⟩ := oppedBy held
    · exact Or.inl ⟨before, was, seat.trans seated, already⟩
    · obtain ⟨old, had, kept⟩ :=
        (op.2.trans afterOp).kept first.chptr ch known there
      rw [here] at had
      have called : (ChanAct.execAll now (serv.hChanservModeOp now
          (s.parsed chptr parv).chans chptr
          (s.parsed chptr parv).chans.oppedList)
          (s.parsed chptr parv).chans).member.cell m = some second := by
        rw [← usedSecond]
        exact congrArg (fun chans => Heap.cell (Chans.member chans) m)
          (callHook_of_mem among _).symm
      rw [seated.clientP]
      exact Or.inr (hChanservModeOp_allows had (kept.name ▸ watches) among
        usedFirst called (later.opped opped))
  · have held := (opDemoted.trans later).voiced voiced
    obtain ⟨already, -⟩ | ⟨among, here⟩ := voicedBy held
    · exact Or.inl ⟨before, was, seat.trans seated, already⟩
    · obtain ⟨old, had, kept⟩ := afterOp.kept first.chptr ch
        (Nat.lt_of_lt_of_le known op.2.next_le) there
      rw [here] at had
      have lists : (s.beforeVoice (serv.env now base) now chptr
          parv).chans.voicedList = (s.parsed chptr parv).chans.voicedList :=
        (State.callHook_lists _ _).voiced
      rw [← lists] at among
      have called : (ChanAct.execAll now (serv.hChanservModeVoice now
          (s.beforeVoice (serv.env now base) now chptr parv).chans chptr
          (s.beforeVoice (serv.env now base) now chptr parv).chans.voicedList)
          (s.beforeVoice (serv.env now base) now chptr
            parv).chans).member.cell m = some third := by
        rw [← usedThird]
        exact congrArg (fun chans => Heap.cell (Chans.member chans) m)
          (callHook_of_mem among _).symm
      exact Or.inr (hChanservModeVoice_allows had (kept.name ▸ watches) among
        called (lastDemoted.voiced voiced))

end Chmode

end ChanServ

namespace State

variable {env : Env} {now : Int} {clientP : ClientId} {parv : List CString}
  {s t : State}

theorem cMode_cases :
    Ensures (fun t => t.chans = s.chans ∨
        ∃ chptr, t = s.handleChmode env now chptr clientP (parv.drop 1))
      (s.cMode env now clientP parv) := by
  unfold cMode
  split
  · exact Or.inl rfl
  · refine Ensures.bind fun name _ => ?_
    split
    · exact Or.inl rfl
    · split
      · split
        · exact Or.inl rfl
        · split
          · exact Or.inl rfl
          · refine Ensures.bind fun modes _ => ?_
            exact Or.inl rfl
      · split
        · exact Or.inl rfl
        · rename_i chptr found
          split
          · exact Or.inl rfl
          · exact Or.inr ⟨chptr, rfl⟩

theorem cTmode_cases :
    Ensures (fun t => t.chans = s.chans ∨
        ∃ chptr, t = s.handleChmode env now chptr clientP (parv.drop 2))
      (s.cTmode env now clientP parv) := by
  unfold cTmode
  split
  · exact Or.inl rfl
  · refine Ensures.bind fun chname _ => ?_
    split
    · exact Or.inl rfl
    · rename_i chptr found
      refine Ensures.bind fun tsinfo _ => ?_
      split
      · exact Or.inl rfl
      · exact Or.inr ⟨chptr, rfl⟩

theorem inv_of_moves {First Second : Chans → Prop}
    (moves : Moves First Second s t) (start : First s.chans) :
    Second t.chans := by
  obtain ⟨chans, rfl, kept⟩ := moves
  exact kept start

theorem joinZero_raises (clientP : ClientId) (s : State) :
    NoneRaised s.chans (s.joinZero clientP).chans := by
  unfold joinZero
  rw [onChans_chans]
  generalize s.chans.userChannels clientP = members
  generalize s.chans = chans
  induction members generalizing chans with
  | nil => exact .refl chans
  | cons mptr rest ih =>
      refine NoneRaised.trans (fun m after used => ?_) (ih _)
      rw [Chans.delChmember_cell] at used
      split at used
      · cases used
      · exact ⟨after, used, .refl after⟩

end State

namespace ChanServ

variable {serv : ChanServ} {base : Env} {now : Int} {clientP : ClientId}
  {parv : List CString} {s t : State}

def Leaves (serv : ChanServ) (now : Int) (s t : State) : Prop :=
  Inv (fun _ => True) t.chans ∧ serv.Checks now t.clients s.chans t.chans

theorem leaves_of_same (inv : Inv (fun _ => True) s.chans)
    (same : t.chans = s.chans) : serv.Leaves now s t := by
  refine ⟨same ▸ inv, checks_of_raised (.of_member ?_)⟩
  rw [same]

theorem handleChmode_leaves {chptr : ChannelId}
    (inv : Inv (fun _ => True) s.chans) :
    serv.Leaves now s
      (s.handleChmode (serv.env now base) now chptr clientP parv) :=
  ⟨State.inv_of_moves State.handleChmode_moves inv, handleChmode_checks inv⟩

theorem sjoin_leaves (inv : Inv (fun _ => True) s.chans)
    (handled : s.cSjoin (serv.env now base) now clientP parv = .ok t) :
    serv.Leaves now s t := by
  refine ⟨State.inv_of_moves
    ((State.cSjoin_moves fun _ _ => trivial).of_ok handled) inv, ?_⟩
  cases read : s.sjoinCall clientP parv with
  | none =>
      obtain ⟨-, rfl⟩ | ⟨-, rfl⟩ :=
        (State.cSjoin_of_none read).of_ok handled
      · exact checks_of_raised (.refl _)
      · exact checks_of_raised (State.found_raises _ s)
  | some call =>
      rw [State.cSjoin_of_call read, Except.ok.injEq] at handled
      subst handled
      have entered := call.entered_spec inv (serv.env now base)
      rw [State.SjoinCall.apply_eq]
      split
      · exact checks_of_raised (call.lowered_raises s _)
      · split
        · exact freeChannel_checks entered
        · exact hChanservJoin_checks entered

theorem join_leaves (inv : Inv (fun _ => True) s.chans)
    (handled : s.cJoin (serv.env now base) now clientP parv = .ok t) :
    serv.Leaves now s t := by
  refine ⟨State.inv_of_moves
    ((State.cJoin_moves fun _ _ => trivial).of_ok handled) inv, ?_⟩
  obtain ⟨-, rfl | rfl⟩ | ⟨-, rfl⟩ | ⟨target, -, rfl⟩ :=
    State.cJoin_cases.of_ok handled
  · exact checks_of_raised (.refl _)
  · exact checks_of_raised (State.joinZero_raises clientP s)
  · exact checks_of_raised (State.found_raises _ s)
  · rw [State.JoinTarget.apply_eq]
    exact hChanservJoin_checks (target.entered_spec inv _ clientP)

theorem message_leaves {command : Command}
    (named : command ∈ [Command.sjoin, .join, .mode, .tmode])
    (inv : Inv (fun _ => True) s.chans)
    (handled : s.handleScommandClient (serv.env now base) now clientP command
      parv = .ok t) : serv.Leaves now s t := by
  simp only [List.mem_cons, List.not_mem_nil, or_false] at named
  obtain rfl | rfl | rfl | rfl := named
  · exact sjoin_leaves inv handled
  · exact join_leaves inv handled
  · obtain same | ⟨chptr, rfl⟩ := State.cMode_cases.of_ok handled
    · exact leaves_of_same inv same
    · exact handleChmode_leaves inv
  · obtain same | ⟨chptr, rfl⟩ := State.cTmode_cases.of_ok handled
    · exact leaves_of_same inv same
    · exact handleChmode_leaves inv

end ChanServ

namespace Chans

def HasUser (s : Chans) (chptr : ChannelId) (client : ClientId)
    (condition : Chmember → Bool) : Prop :=
  ∃ m ∈ s.usersOf chptr, ∃ member, s.member.cell m = some member ∧
    member.clientP = client ∧ condition member = true

def IsIn (s : Chans) (chptr : ChannelId) (client : ClientId) : Prop :=
  s.HasUser chptr client fun _ => true

def HasOp (s : Chans) (chptr : ChannelId) (client : ClientId) : Prop :=
  s.HasUser chptr client Chmember.isOpped

def HasVoice (s : Chans) (chptr : ChannelId) (client : ClientId) : Prop :=
  s.HasUser chptr client Chmember.isVoiced

theorem Inv.hasUser_of_seat {s : Chans} (inv : Inv (fun _ => True) s)
    {m : MemberId} {before after : Chmember} {condition : Chmember → Bool}
    (was : s.member.cell m = some before) (seat : SameSeat before after)
    (holds : condition before = true) :
    s.HasUser after.chptr after.clientP condition := by
  refine ⟨m, ?_, before, was, seat.clientP.symm, holds⟩
  rw [inv.mem_usersOf, Heap.has_iff was]
  exact seat.chptr.symm

end Chans

/-- What a message leaves of a registered channel: who became opped or voiced by
it is allowed to be, and who joined by it is not banned. -/
structure ChanServ.Enforced (serv : ChanServ) (now : Int) (s t : State)
    (chptr : ChannelId) (ch : Channel) (target : ChanRegId) (reg : ChanReg) :
    Prop where
  noops : reg.flags.has csFlagsNoops = true → ∀ client,
    t.chans.HasOp chptr client → s.chans.HasOp chptr client
  restrictops : reg.flags.has csFlagsRestrictops = true → ∀ client,
    t.chans.HasOp chptr client → ¬s.chans.HasOp chptr client →
    ∃ entry, serv.regs.access client target = some entry ∧
      sCOp ≤ entry.level
  novoices : reg.flags.has csFlagsNovoices = true → ∀ client,
    t.chans.HasVoice chptr client → s.chans.HasVoice chptr client
  bans : ∀ client, t.chans.IsIn chptr client → ¬s.chans.IsIn chptr client →
    ∀ ban ∈ reg.bans, ban.expired now = false →
      match_ ban.mask (t.clients.maskOf client) = true →
      (∀ entry, serv.regs.access client target = some entry →
        entry.level < ban.level) →
      findExempt ch.excepts (t.clients.maskOf client) = true

namespace State

/-- Every `SJOIN`, `JOIN`, `MODE` and `TMODE` leaves every registered channel
that is not suspended as its registration wants it. -/
theorem enforced_of_message (blocks : List ServiceBlock) (pingTime : Int)
    (history : List (Env × Event)) (s : State)
    (reached : run (fun s entry => s.step entry.1 entry.2)
      (start blocks pingTime) history = .ok s)
    (serv : ChanServ) (base : Env) (now : Int) (command : Command)
    (named : command ∈ [Command.sjoin, .join, .mode, .tmode])
    (clientP : ClientId) (parv : List CString) (t : State)
    (handled : s.handleScommandClient (serv.env now base) now clientP command
      parv = .ok t)
    (chptr : ChannelId) (ch : Channel) (target : ChanRegId) (reg : ChanReg)
    (there : t.chans.channel.cell chptr = some ch)
    (watches : serv.Watches now ch.name target reg) :
    serv.Enforced now s t chptr ch target reg := by
  have inv : Inv (fun _ => True) s.chans :=
    run_preserves (fun t => Inv (fun _ => True) t.chans)
      (fun _ entry _ inv stepped => (step_inv (meetsLines_of_forall
        (fun _ _ _ _ => trivial) _ entry.2) inv).of_ok stepped)
      Inv.empty reached
  obtain ⟨after, checks⟩ := ChanServ.message_leaves named inv handled
  have checked : ∀ m ∈ t.chans.usersOf chptr, ∀ member,
      t.chans.member.cell m = some member → member.chptr = chptr ∧
        serv.Checked now t.clients target reg ch.excepts s.chans m member := by
    intro m listed member used
    obtain ⟨other, used', inside⟩ := (after.mem_usersOf chptr m).mp listed
    rw [used, Option.some.injEq] at used'
    subst used'
    have inside : member.chptr = chptr := inside
    exact ⟨inside, checks m member ch target reg used (inside ▸ there) watches⟩
  refine ⟨?_, ?_, ?_, ?_⟩
  · rintro noops client ⟨m, listed, member, used, rfl, opped⟩
    obtain ⟨rfl, passed⟩ := checked m listed member used
    obtain ⟨before, was, seat, already⟩ | ⟨allowed, -⟩ := passed.opped opped
    · exact inv.hasUser_of_seat was seat already
    · rw [noops] at allowed
      cases allowed
  · rintro restricted client ⟨m, listed, member, used, rfl, opped⟩ became
    obtain ⟨rfl, passed⟩ := checked m listed member used
    obtain ⟨before, was, seat, already⟩ | ⟨-, allowed⟩ := passed.opped opped
    · exact absurd (inv.hasUser_of_seat was seat already) became
    · obtain ⟨entry, found, may⟩ :=
        (Option.any_eq_true _ _).mp (allowed restricted)
      exact ⟨entry, found, of_decide_eq_true may⟩
  · rintro novoices client ⟨m, listed, member, used, rfl, voiced⟩
    obtain ⟨rfl, passed⟩ := checked m listed member used
    obtain ⟨before, was, seat, already⟩ | allowed := passed.voiced voiced
    · exact inv.hasUser_of_seat was seat already
    · rw [novoices] at allowed
      cases allowed
  · rintro client ⟨m, listed, member, used, rfl, -⟩ joined ban among unexpired
      matched above
    obtain ⟨rfl, passed⟩ := checked m listed member used
    obtain ⟨before, was, seat⟩ | exempt := passed.bans
    · exact absurd (inv.hasUser_of_seat was seat rfl) joined
    · refine exempt ban among unexpired matched ?_
      cases found : serv.regs.access member.clientP target with
      | none => rfl
      | some entry => simpa using above entry found

/-- The registration of `#a`, without ops and with a ban. -/
def strictReg : ChanReg where
  name := "#a".toList
  flags := Word.ofBits [csFlagsNoops]
  bans := [makeBan "two!*@*".toList [] [] 100 0]

def strictChannel : ChanServ where
  regs := { Regs.empty with chan := Heap.empty.alloc strictReg, chanTable := [0] }
  settings := fun _ => ⟨5, [], {}, {}⟩
  self := 0

def twoUsers : List (Env × Event) :=
  (linkUp
    [⟨":0AB UID one 1 5 +i u h 0 0ABAAAAAA :g".toList, false⟩,
      ⟨":0AB UID two 1 5 +i u h 0 0ABAAAAAB :g".toList, false⟩]).map
    fun event => (.quiet, event)

def opAndBanned : List CString :=
  ["5".toList, "#a".toList, "+".toList, "@0ABAAAAAA 0ABAAAAAB".toList]

theorem enforced_of_strictChannel :
    ∃ s t ch, run (fun s entry => s.step entry.1 entry.2)
        (start [{ name := "CHANSERV".toList }] 300) twoUsers = .ok s ∧
      s.handleScommandClient (strictChannel.env 9 .quiet) 9 1 .sjoin
        opAndBanned = .ok t ∧
      t.chans.channel.cell 0 = some ch ∧
      strictChannel.Enforced 9 s t 0 ch 0 strictReg ∧
      (ch.users, ch.usersOpped) = ([0], []) := by
  have observed : (run (fun s (entry : Env × Event) => s.step entry.1 entry.2)
      (start [{ name := "CHANSERV".toList }] 300) twoUsers).toOption.map
      (fun s => (s.handleScommandClient (strictChannel.env 9 .quiet) 9 1 .sjoin
        opAndBanned).toOption.map fun t => (t.chans.channel.cell 0).map
          fun ch => (ch.name, ch.users, ch.usersOpped)) =
      some (some (some ("#a".toList, [0], []))) := by
    decide +kernel
  obtain ⟨s, reached, seen⟩ := Except.exists_of_observed observed
  obtain ⟨t, handled, seen⟩ := Except.exists_of_observed seen
  obtain ⟨ch, there, seen⟩ := Option.map_eq_some_iff.mp seen
  rw [Prod.mk.injEq] at seen
  refine ⟨s, t, ch, reached, handled, there, ?_, seen.2⟩
  refine enforced_of_message _ 300 twoUsers s reached strictChannel .quiet 9
    .sjoin (by decide) 1 opAndBanned t handled 0 ch 0 strictReg there ?_
  rw [seen.1]
  exact ⟨by decide +kernel, rfl, by decide +kernel⟩

end State

end RatboxServices
