import RatboxServices.Net.ChannelRun
import RatboxServices.Net.Raised
import RatboxServices.Net.TsRun
import RatboxServices.Serv.ChanHook

namespace RatboxServices

open CString
open Chmember (SameSeat Demoted)
open Chans (Faces NoneRaised)

/-! That the callbacks of ChanServ enforce what is registered: who was opped,
voiced or joined by a message keeps only what the registration allows. -/

namespace ChanAct

variable {now : Int} {m : MemberId} {acts : List ChanAct} {s : Chans}

structure About (m : MemberId) (act : ChanAct) : Prop where
  narrow : act.isNarrow = true
  only : ∀ other, act.mptr = some other → other = m

theorem execAll_other {other : MemberId} (about : ∀ act ∈ acts, About m act)
    (different : other ≠ m) :
    (execAll now acts s).member.cell other = s.member.cell other := by
  refine execAll_cell_of_ne (fun act among => (about act among).narrow) ?_
  exact fun act among same => different ((about act among).only other same)

def spares (act : ChanAct) : Prop :=
  act.isNarrow = true ∧ act.mptr = none

theorem spares.about {act : ChanAct} (spares : act.spares) : About m act :=
  ⟨spares.1, fun other same => by rw [spares.2] at same; cases same⟩

theorem execAll_spares (spares : ∀ act ∈ acts, act.spares) :
    (execAll now acts s).member.cell m = s.member.cell m := by
  refine execAll_cell_of_ne (fun act among => (spares act among).1) ?_
  intro act among same
  rw [(spares act among).2] at same
  cases same

theorem execAll_inTurn_cons {α : Type} {turn : α → Chans → List ChanAct}
    {value : α} {rest : List α} :
    execAll now (inTurn now turn (value :: rest) s) s =
      execAll now (inTurn now turn rest (execAll now (turn value s) s))
        (execAll now (turn value s) s) := by
  rw [inTurn, execAll_append]

theorem mem_inTurn_of {α : Type} {turn : α → Chans → List ChanAct}
    {values : List α} {act : ChanAct} {P : Chans → Prop} (start : P s)
    (kept : ∀ value t, P t → P (execAll now (turn value t) t))
    (among : act ∈ inTurn now turn values s) :
    ∃ value ∈ values, ∃ t, P t ∧ act ∈ turn value t := by
  induction values generalizing s with
  | nil => cases among
  | cons value rest ih =>
      rw [inTurn] at among
      obtain first | later := List.mem_append.mp among
      · exact ⟨value, by simp, s, start, first⟩
      · obtain ⟨other, listed, there⟩ := ih (kept value s start) later
        exact ⟨other, List.mem_cons_of_mem _ listed, there⟩

theorem mem_inTurn {α : Type} {turn : α → Chans → List ChanAct}
    {values : List α} {act : ChanAct}
    (among : act ∈ inTurn now turn values s) :
    ∃ value ∈ values, ∃ t, act ∈ turn value t := by
  obtain ⟨value, listed, t, -, there⟩ := mem_inTurn_of (P := fun _ => True)
    trivial (fun _ _ _ => trivial) among
  exact ⟨value, listed, t, there⟩

end ChanAct

open ChanAct (About execAll_other execAll_spares execAll_append)

namespace ChanServ

variable {serv : ChanServ} {env : Env} {now : Int} {clients : Clients}
  {target : ChanRegId} {reg : ChanReg} {chptr : ChannelId} {mptr : MemberId}
  {member after : Chmember} {access : Option MemberReg} {s : Chans}

section Acts

variable {Holds : ChanAct → Prop} {ban : BanReg} {autojoin : Bool}

theorem enableInhabit_forall
    (join : ∀ ch mode, s.channel.cell chptr = some ch →
      Holds (.join serv.self (serv.regs.chanName target)
        (min (serv.settings target).tsinfo ch.tsinfo) (some mode) autojoin))
    (topic : ∀ topic topicwho, Holds (.setTopic chptr topic topicwho now)) :
    ∀ act ∈ serv.enableInhabit env now target chptr autojoin s,
      Holds act := by
  intro act among
  unfold enableInhabit at among
  split at among
  · cases among
  · rename_i ch used
    obtain rfl | later := List.mem_cons.mp among
    · exact join ch _ used
    · split at later
      · exact List.mem_singleton.mp later ▸ topic _ _
      · cases later

theorem inhabitIfAlone_forall
    (inhabits : ∀ act ∈ serv.enableInhabit env now target chptr false s,
      Holds act) :
    ∀ act ∈ serv.inhabitIfAlone env now target chptr s, Holds act := by
  unfold inhabitIfAlone
  split
  · exact inhabits
  · simp

/-- What holds of the acts that `h_chanserv_join` can do with a member. -/
theorem welcome_forall
    (status : Holds (.op mptr) ∧ Holds (.deop mptr) ∧ Holds (.voice mptr) ∧
      Holds (.devoice mptr))
    (alone : ∀ act ∈ serv.inhabitIfAlone env now target chptr s, Holds act)
    (joins : reg.flags.has csFlagsAutojoin = true →
      serv.isInhabiting s chptr = false →
      ∀ act ∈ serv.enableInhabit env now target chptr true s, Holds act)
    (stage : Welcome) :
    ∀ act ∈ serv.welcome env now target reg chptr mptr member access stage s,
      Holds act := by
  obtain ⟨op, deop, voice, devoice⟩ := status
  intro act among
  unfold welcome at among
  split at among
  · split at among
    · obtain first | last := List.mem_append.mp among
      · exact alone act first
      · exact List.mem_singleton.mp last ▸ deop
    · cases among
  · split at among
    · obtain first | last := List.mem_append.mp among
      · exact alone act first
      · exact List.mem_singleton.mp last ▸ devoice
    · split at among
      · rename_i enters
        obtain ⟨auto, outside⟩ := (Bool.and_eq_true _ _).mp enters
        exact joins auto (by simpa using outside) act among
      · cases among
  · split at among
    · cases among
    · unfold grant at among
      split at among
      · cases among
      · split at among
        · exact List.mem_singleton.mp among ▸ op
        · split at among
          · exact List.mem_singleton.mp among ▸ voice
          · cases among

/-- What holds of the acts before a kick. -/
theorem beforeKick_forall (deop : Holds (.deop mptr))
    (addBan : Holds (.addBan chptr ban.mask))
    (alone : ∀ act ∈ serv.inhabitIfAlone env now target chptr s, Holds act) :
    ∀ act ∈ (if member.isOpped then [ChanAct.deop mptr] else []) ++
        (if lacksBan s chptr ban.mask then [.addBan chptr ban.mask] else []) ++
        serv.inhabitIfAlone env now target chptr s, Holds act := by
  intro act among
  obtain (first | mask) | inhabit := by
    simpa only [List.mem_append] using among
  · split at first
    · exact List.mem_singleton.mp first ▸ deop
    · cases first
  · split at mask
    · exact List.mem_singleton.mp mask ▸ addBan
    · cases mask
  · exact alone act inhabit

end Acts

theorem enableInhabit_spares (autojoin : Bool) :
    ∀ act ∈ serv.enableInhabit env now target chptr autojoin s,
      act.spares :=
  enableInhabit_forall (fun _ _ _ => ⟨rfl, rfl⟩) fun _ _ => ⟨rfl, rfl⟩

theorem inhabitIfAlone_spares :
    ∀ act ∈ serv.inhabitIfAlone env now target chptr s, act.spares :=
  inhabitIfAlone_forall (enableInhabit_spares false)

theorem about_of_mptr {act : ChanAct} (narrow : act.isNarrow = true)
    (about : act.mptr = some mptr) : About mptr act :=
  ⟨narrow, fun _ same => Option.some.inj (same.symm.trans about)⟩

theorem welcome_about (stage : Welcome) :
    ∀ act ∈ serv.welcome env now target reg chptr mptr member access stage s,
      About mptr act :=
  welcome_forall ⟨about_of_mptr rfl rfl, about_of_mptr rfl rfl,
      about_of_mptr rfl rfl, about_of_mptr rfl rfl⟩
    (fun act inside => (inhabitIfAlone_spares act inside).about)
    (fun _ _ act inside => (enableInhabit_spares true act inside).about) stage

theorem kickBanned_about {ban : BanReg} :
    ∀ act ∈ serv.kickBanned env now target chptr mptr member ban s,
      About mptr act := by
  intro act among
  obtain before | kick := List.mem_append.mp among
  · exact beforeKick_forall (about_of_mptr rfl rfl)
      ⟨rfl, fun _ same => by cases same⟩
      (fun act inside => (inhabitIfAlone_spares act inside).about) act before
  · exact List.mem_singleton.mp kick ▸ about_of_mptr rfl rfl

theorem joinTurn_about :
    ∀ act ∈ serv.joinTurn env now clients target reg chptr mptr s,
      About mptr act := by
  unfold joinTurn
  split
  · dsimp only
    split
    · exact kickBanned_about
    · intro act among
      obtain ⟨stage, -, t, there⟩ := ChanAct.mem_inTurn among
      exact welcome_about stage act there
  · simp

structure Obeys (serv : ChanServ) (now : Int) (clients : Clients)
    (target : ChanRegId) (reg : ChanReg) (excepts : List CString)
    (member : Chmember) : Prop where
  opped : member.isOpped = true →
    reg.flags.has csFlagsNoops = false ∧
    (reg.flags.has csFlagsRestrictops = true →
      (serv.regs.access member.clientP target).any MemberReg.mayOp = true)
  voiced : member.isVoiced = true → reg.flags.has csFlagsNovoices = false
  bans : ∀ ban ∈ reg.bans, ban.expired now = false →
    match_ ban.mask (clients.maskOf member.clientP) = true →
    ((serv.regs.access member.clientP target).any fun entry =>
      decide (ban.level ≤ entry.level)) = false →
    findExempt excepts (clients.maskOf member.clientP) = true

theorem welcome_op
    (used : (ChanAct.execAll now (serv.welcome env now target reg chptr mptr
      member access .op s) s).member.cell mptr = some after) :
    ∃ before, s.member.cell mptr = some before ∧ SameSeat before after ∧
      after.isVoiced = before.isVoiced ∧
      (after.isOpped = true →
        before.isOpped = true ∧ refusesOp reg access member = false) := by
  rw [welcome] at used
  split at used
  · rw [execAll_append] at used
    obtain ⟨before, there, seat, unopped, voice⟩ :=
      Chans.deopChmember_own used
    rw [execAll_spares inhabitIfAlone_spares] at there
    refine ⟨before, there, seat, voice, fun opped => ?_⟩
    rw [unopped] at opped
    cases opped
  · rename_i allowed
    exact ⟨after, used, .refl after, rfl, fun opped =>
      ⟨opped, Bool.eq_false_iff.mpr allowed⟩⟩

theorem welcome_voice
    (used : (ChanAct.execAll now (serv.welcome env now target reg chptr mptr
      member access .voice s) s).member.cell mptr = some after) :
    ∃ before, s.member.cell mptr = some before ∧ SameSeat before after ∧
      after.isOpped = before.isOpped ∧
      (after.isVoiced = true →
        before.isVoiced = true ∧ refusesVoice reg member = false) := by
  rw [welcome] at used
  split at used
  · rw [execAll_append] at used
    obtain ⟨before, there, seat, op, unvoiced⟩ :=
      Chans.devoiceChmember_own used
    rw [execAll_spares inhabitIfAlone_spares] at there
    refine ⟨before, there, seat, op, fun voiced => ?_⟩
    rw [unvoiced] at voiced
    cases voiced
  · rename_i allowed
    refine ⟨after, ?_, .refl after, rfl, fun voiced =>
      ⟨voiced, Bool.eq_false_iff.mpr allowed⟩⟩
    split at used
    · rwa [execAll_spares (enableInhabit_spares true)] at used
    · exact used

theorem welcome_access
    (used : (ChanAct.execAll now (serv.welcome env now target reg chptr mptr
      member access .access s) s).member.cell mptr = some after) :
    ∃ before, s.member.cell mptr = some before ∧ SameSeat before after ∧
      (after.isOpped = true → before.isOpped = true ∨
        (reg.flags.has csFlagsNoops = false ∧
          access.any MemberReg.mayOp = true)) ∧
      (after.isVoiced = true → before.isVoiced = true ∨
        reg.flags.has csFlagsNovoices = false) := by
  rw [welcome] at used
  split at used
  · exact ⟨after, used, .refl after, Or.inl, Or.inl⟩
  · unfold grant at used
    split at used
    · exact ⟨after, used, .refl after, Or.inl, Or.inl⟩
    · rename_i entry
      split at used
      · rename_i autoop
        simp only [Bool.and_eq_true, Bool.not_eq_true'] at autoop
        obtain ⟨before, there, seat, opped, voice⟩ :=
          Chans.opChmember_own used
        exact ⟨before, there, seat,
          fun _ => Or.inr ⟨autoop.2, autoop.1.2⟩,
          fun voiced => Or.inl (voice ▸ voiced)⟩
      · split at used
        · rename_i autovoice
          simp only [Bool.and_eq_true, Bool.not_eq_true'] at autovoice
          obtain ⟨before, there, seat, op, voiced⟩ :=
            Chans.voiceChmember_own used
          exact ⟨before, there, seat, fun opped => Or.inl (op ▸ opped),
            fun _ => Or.inr autovoice.2⟩
        · exact ⟨after, used, .refl after, Or.inl, Or.inl⟩

theorem hitBan_eq_none {level : Option Int} {mask : CString}
    {excepts : List CString} {bans : List BanReg}
    (missed : Regs.hitBan now level mask excepts bans = none) {ban : BanReg}
    (listed : ban ∈ bans) (unexpired : ban.expired now = false)
    (matched : match_ ban.mask mask = true)
    (above : (level.any fun level => decide (ban.level ≤ level)) = false) :
    findExempt excepts mask = true := by
  unfold Regs.hitBan at missed
  split at missed
  · rename_i none_
    have fails := List.find?_eq_none.mp none_ ban listed
    simp [unexpired, matched, above] at fails
  · split at missed
    · assumption
    · cases missed

theorem kickBanned_gone {ban : BanReg} :
    (ChanAct.execAll now (serv.kickBanned env now target chptr mptr member ban
      s) s).member.cell mptr = none := by
  rw [kickBanned, execAll_append]
  exact (Chans.delChmember_cell mptr mptr _).trans (if_pos rfl)

theorem joinTurn_obeys {ch : Channel}
    (there : s.channel.cell chptr = some ch)
    (used : (ChanAct.execAll now
      (serv.joinTurn env now clients target reg chptr mptr s) s).member.cell
        mptr = some after) :
    (∃ before, s.member.cell mptr = some before ∧ SameSeat before after) ∧
      Obeys serv now clients target reg ch.excepts after := by
  unfold joinTurn at used
  rw [there] at used
  split at used
  · rename_i member face found same
    rw [Option.some.injEq] at same
    subst same
    dsimp only at used
    split at used
    · rw [kickBanned_gone] at used
      cases used
    · rename_i missed
      rw [ChanAct.execAll_inTurn_cons, ChanAct.execAll_inTurn_cons,
        ChanAct.execAll_inTurn_cons] at used
      obtain ⟨third, second, seat, lastOp, lastVoice⟩ := welcome_access used
      obtain ⟨second, first, seat', sameOp, voice⟩ := welcome_voice second
      obtain ⟨start, first, seat'', sameVoice, op⟩ := welcome_op first
      rw [found, Option.some.injEq] at first
      subst first
      have seated := (seat''.trans seat').trans seat
      refine ⟨⟨_, found, seated⟩, fun opped => ?_, fun voiced => ?_, ?_⟩
      · rw [seated.clientP]
        obtain before | ⟨noops, may⟩ := lastOp opped
        · rw [sameOp] at before
          obtain ⟨joined, allowed⟩ := op before
          simp only [refusesOp, joined, Bool.true_and, Bool.or_eq_false_iff,
            Bool.and_eq_false_iff, Bool.not_eq_false'] at allowed
          refine ⟨allowed.1, fun restricted => ?_⟩
          exact allowed.2.resolve_left (by simp [restricted])
        · exact ⟨noops, fun _ => may⟩
      · obtain before | novoices := lastVoice voiced
        · obtain ⟨joined, allowed⟩ := voice before
          rw [sameVoice] at joined
          simpa [refusesVoice, joined] using allowed
        · exact novoices
      · rw [seated.clientP]
        intro ban listed unexpired matched above
        refine hitBan_eq_none missed listed unexpired matched ?_
        rw [Option.any_map]
        exact above
  · rename_i missing
    cases found : s.member.cell mptr with
    | none =>
        replace used : s.member.cell mptr = some after := used
        rw [found] at used
        cases used
    | some member => exact absurd rfl (missing member ch found)

theorem joinTurns_about {members : List MemberId} :
    ∀ act ∈ ChanAct.inTurn now
        (serv.joinTurn env now clients target reg chptr) members s,
      ∃ m ∈ members, About m act := by
  intro act among
  obtain ⟨m, listed, t, there⟩ := ChanAct.mem_inTurn among
  exact ⟨m, listed, joinTurn_about act there⟩

theorem joinTurns_other {members : List MemberId} {m : MemberId}
    (outside : m ∉ members) :
    (ChanAct.execAll now (ChanAct.inTurn now
      (serv.joinTurn env now clients target reg chptr) members s) s).member.cell
        m = s.member.cell m := by
  refine ChanAct.execAll_cell_of_ne (fun act among => ?_) fun act among => ?_
  · obtain ⟨_, -, about⟩ := joinTurns_about act among
    exact about.narrow
  · obtain ⟨other, listed, about⟩ := joinTurns_about act among
    intro same
    exact outside (about.only m same ▸ listed)

theorem joinTurns_obey {excepts : List CString} {members : List MemberId}
    (inv : Chans.Inv (fun _ => True) s) (known : chptr < s.channel.next)
    (face : ∀ ch, s.channel.cell chptr = some ch → ch.excepts = excepts)
    (inside : ∀ m ∈ members, ∀ member, s.member.cell m = some member →
      member.chptr = chptr)
    (nodup : members.Nodup) {m : MemberId} (listed : m ∈ members)
    (used : (ChanAct.execAll now (ChanAct.inTurn now
      (serv.joinTurn env now clients target reg chptr) members s) s).member.cell
        m = some after) :
    after.chptr = chptr ∧
      Obeys serv now clients target reg excepts after := by
  induction members generalizing s with
  | nil => cases listed
  | cons first rest ih =>
      rw [ChanAct.execAll_inTurn_cons] at used
      obtain ⟨fresh, nodup⟩ := List.nodup_cons.mp nodup
      obtain rfl | later := List.mem_cons.mp listed
      · -- the turns of the others leave this member alone
        rw [joinTurns_other fresh] at used
        cases found : s.member.cell m with
        | none => simp [joinTurn, found, ChanAct.execAll] at used
        | some member =>
            obtain ⟨ch, there⟩ := inv.owner m member found
            have here := inside m (by simp) member found
            rw [here] at there
            obtain ⟨⟨before, was, seat⟩, obeys⟩ := joinTurn_obeys there used
            rw [found, Option.some.injEq] at was
            subst was
            exact ⟨seat.chptr.trans here, face ch there ▸ obeys⟩
      · have faces : Faces s (ChanAct.execAll now (serv.joinTurn env now
            clients target reg chptr first s) s) :=
          ChanAct.execAll_faces fun act among =>
            (joinTurn_about act among).narrow
        refine ih (inv.execAll now _) ?_ ?_ ?_ nodup later used
        · exact Nat.lt_of_lt_of_le known faces.next_le
        · intro ch there
          obtain ⟨old, was, same⟩ := faces.kept chptr ch known there
          exact same.excepts.trans (face old was)
        · intro m among member found
          have other : m ≠ first := fun same => fresh (same ▸ among)
          rw [execAll_other joinTurn_about other] at found
          exact inside m (List.mem_cons_of_mem _ among) member found

section Stamped

variable {base : Env} (clock : 0 ≤ now)
  (stored : ∀ target, 0 ≤ (serv.settings target).tsinfo)

include clock in
theorem inTurn_stamped {α : Type} {turn : α → Chans → List ChanAct}
    (stamped : ∀ value s, s.AllValid → ∀ act ∈ turn value s, act.stamped)
    (valid : s.AllValid) {values : List α} :
    ∀ act ∈ ChanAct.inTurn now turn values s, act.stamped := by
  intro act among
  obtain ⟨value, -, t, valid, there⟩ := ChanAct.mem_inTurn_of valid
    (fun value t valid => valid.evolve ((State.admits (tsLaws clock)).execAll
      (State.meetsActs_of_stamped (stamped value t valid)))) among
  exact stamped value t valid act there

include stored in
theorem enableInhabit_stamped (valid : s.AllValid) (autojoin : Bool) :
    ∀ act ∈ serv.enableInhabit env now target chptr autojoin s,
      act.stamped :=
  enableInhabit_forall
    (fun ch _ used => le_min (stored target) (valid chptr ch used))
    fun _ _ => Int.le_refl 0

include clock stored

theorem joinTurn_stamped (valid : s.AllValid) (mptr : MemberId) :
    ∀ act ∈ serv.joinTurn env now clients target reg chptr mptr s,
      act.stamped := by
  have zero : (0 : Int) ≤ 0 := Int.le_refl 0
  have alone : ∀ t : Chans, t.AllValid →
      ∀ act ∈ serv.inhabitIfAlone env now target chptr t, act.stamped :=
    fun t valid => inhabitIfAlone_forall
      (enableInhabit_stamped stored valid false)
  unfold joinTurn
  split
  · dsimp only
    split
    · intro act among
      obtain before | kick := List.mem_append.mp among
      · exact beforeKick_forall zero zero (alone s valid) act before
      · exact List.mem_singleton.mp kick ▸ zero
    · exact inTurn_stamped clock (fun stage t valid =>
        welcome_forall ⟨zero, zero, zero, zero⟩ (alone t valid)
          (fun _ _ => enableInhabit_stamped stored valid true) stage) valid
  · simp

/-- The callbacks of ChanServ join with no negative TS. -/
theorem env_servicesStamped (services : State.ServicesStamped base) :
    State.ServicesStamped (serv.env now base) where
  join := by
    intro s valid chptr joined
    show ∀ act ∈ serv.hChanservJoin base now s.clients s.chans chptr joined,
      act.stamped
    unfold hChanservJoin
    split
    · simp
    · exact inTurn_stamped clock (fun mptr t valid =>
        joinTurn_stamped clock stored valid mptr) valid
  op := fun s _ chptr opped => by
    show ∀ act ∈ serv.hChanservModeOp now s.chans chptr opped, act.stamped
    unfold hChanservModeOp
    grind [ChanAct.stamped, ChanAct.joinTs]
  voice := fun s _ chptr voiced => by
    show ∀ act ∈ serv.hChanservModeVoice now s.chans chptr voiced, act.stamped
    unfold hChanservModeVoice
    grind [ChanAct.stamped, ChanAct.joinTs]
  simple := fun s _ chptr => by
    show ∀ act ∈ serv.hChanservModeSimple now s.chans chptr, act.stamped
    unfold hChanservModeSimple
    grind [ChanAct.stamped, ChanAct.joinTs]
  ban := fun s _ chptr bans => by
    show ∀ act ∈ serv.hChanservModeBan now s.chans chptr bans, act.stamped
    unfold hChanservModeBan
    grind [ChanAct.stamped, ChanAct.joinTs]
  topic := services.topic
  command := services.command

end Stamped

end ChanServ

end RatboxServices
