import RatboxServices.Net.ChannelName
import RatboxServices.Serv.ChanKick
import RatboxServices.Serv.EnforceRun

namespace RatboxServices

open CString
open Chmember (SameSeat)
open Chans (SameNames)
open ChanAct (About execAll execAll_append)

/-! That ChanServ kicks nobody out of a channel that goes with him: it is in the
channel before the last user is kicked, and every kick is told once. -/

namespace ChanAct

def Along (now : Int) (Holds : Chans → Prop)
    (Allowed : Chans → ChanAct → Prop) : List ChanAct → Chans → Prop
  | [], s => Holds s
  | act :: rest, s =>
      Holds s ∧ Allowed s act ∧ Along now Holds Allowed rest (act.exec now s)

variable {now : Int} {Holds : Chans → Prop} {Allowed : Chans → ChanAct → Prop}

theorem Along.append {first second : List ChanAct} {s : Chans}
    (before : Along now Holds Allowed first s)
    (after : Along now Holds Allowed second (execAll now first s)) :
    Along now Holds Allowed (first ++ second) s := by
  induction first generalizing s with
  | nil => exact after
  | cons act rest ih =>
      obtain ⟨holds, allowed, later⟩ := before
      exact ⟨holds, allowed, ih later after⟩

theorem Along.mono {Wider : Chans → Prop} {acts : List ChanAct} {s : Chans}
    (along : Along now Holds Allowed acts s) (wider : ∀ u, Holds u → Wider u) :
    Along now Wider Allowed acts s := by
  induction acts generalizing s with
  | nil => exact wider s along
  | cons act rest ih =>
      obtain ⟨holds, allowed, later⟩ := along
      exact ⟨wider s holds, allowed, ih later⟩

theorem Along.finish {acts : List ChanAct} {s : Chans}
    (along : Along now Holds Allowed acts s) : Holds (execAll now acts s) := by
  induction acts generalizing s with
  | nil => exact along
  | cons act rest ih => exact ih along.2.2

/-- An act that takes nobody out of a channel, and where a service joins, it
joins the channel of the name. -/
def Calm (name : CString) : ChanAct → Prop
  | .op _ | .deop _ | .voice _ | .devoice _ => True
  | .setTopic _ _ _ _ | .addBan _ _ => True
  | .join _ chname _ _ _ => chname = name
  | _ => False

end ChanAct

namespace ChanServ

variable {serv : ChanServ} {now : Int} {name : CString} {chptr : ChannelId}
  {s t u : Chans}

structure Undisturbed (serv : ChanServ) (chptr : ChannelId) (s t : Chans) :
    Prop where
  names : SameNames s t
  users : t.usersOf chptr = s.usersOf chptr
  inhabits : serv.isInhabiting s chptr = true →
    serv.isInhabiting t chptr = true

namespace Undisturbed

theorem refl (s : Chans) : serv.Undisturbed chptr s s :=
  ⟨.refl s, rfl, id⟩

theorem trans (first : serv.Undisturbed chptr s t)
    (second : serv.Undisturbed chptr t u) : serv.Undisturbed chptr s u :=
  ⟨first.names.trans second.names, second.users.trans first.users,
    fun inhabits => second.inhabits (first.inhabits inhabits)⟩

theorem of_modify {target : ChannelId} {change : Channel → Channel}
    (table : t.channelTable = s.channelTable)
    (channel : t.channel = s.channel.modify target change)
    (name : ∀ ch, (change ch).name = ch.name)
    (users : ∀ ch, (change ch).users = ch.users)
    (services : ∀ ch, ∀ service ∈ ch.services,
      service ∈ (change ch).services) : serv.Undisturbed chptr s t := by
  have cell : t.channel.cell chptr = s.channel.cell chptr ∨
      t.channel.cell chptr = (s.channel.cell chptr).map change := by
    rw [channel, Heap.modify_cell]
    split
    · rename_i same
      rw [same]
      exact Or.inr rfl
    · exact Or.inl rfl
  refine ⟨.of_modify table channel name, ?_, fun inhabits => ?_⟩
  · unfold Chans.usersOf
    obtain same | changed := cell
    · rw [same]
    · rw [changed]
      cases s.channel.cell chptr with
      | none => rfl
      | some ch => exact users ch
  · unfold isInhabiting at inhabits ⊢
    obtain same | changed := cell
    · rwa [same]
    · rw [changed]
      cases there : s.channel.cell chptr with
      | none =>
          rw [there] at inhabits
          cases inhabits
      | some ch =>
          rw [there] at inhabits
          exact decide_eq_true (services ch _ (of_decide_eq_true inhabits))

end Undisturbed

open ChanAct (Calm)

section Calm

variable (serv) (now)

theorem joinService_joined (serviceP : ClientId) (tsinfo : Int)
    (mode : Option Chmode) (override : Bool)
    (found : s.findChannel name = some chptr) :
    serv.Undisturbed chptr s
        (s.joinService serviceP name tsinfo mode override now) ∧
      (serviceP = serv.self → serv.isInhabiting
        (s.joinService serviceP name tsinfo mode override now) chptr =
          true) := by
  obtain ⟨ch, there, -⟩ := Chans.exists_of_findChannel found
  have linked : ∀ chans : Chans, serv.Undisturbed chptr chans
      (chans.linkService serviceP chptr) := fun chans =>
    .of_modify rfl rfl (fun _ => rfl) (fun _ => rfl)
      fun ch service listed => List.mem_cons_of_mem _ listed
  have joined : ∀ (chans : Chans) ch, chans.channel.cell chptr = some ch →
      serviceP = serv.self →
      serv.isInhabiting (chans.linkService serviceP chptr) chptr = true := by
    intro chans ch there same
    subst same
    simp [isInhabiting, Chans.linkService, Chans.modifyChannel,
      Chans.onServiceChannels, there, Dlink.find]
  unfold Chans.joinService
  rw [found]
  dsimp only
  rw [there]
  dsimp only
  split
  · rename_i already
    refine ⟨.refl s, fun same => ?_⟩
    subst same
    simpa [isInhabiting, there] using already
  · split
    · have lowered : serv.Undisturbed chptr s (s.modifyChannel chptr fun ch =>
          { ch with
            tsinfo := tsinfo, mode := Chans.serviceMode ch.mode mode }) :=
        .of_modify rfl rfl (fun _ => rfl) (fun _ => rfl) fun _ _ => id
      refine ⟨lowered.trans (linked _), joined _ { ch with
        tsinfo := tsinfo, mode := Chans.serviceMode ch.mode mode } ?_⟩
      simp [Chans.modifyChannel, there]
    · exact ⟨linked s, joined s ch there⟩

theorem Undisturbed.restatus {t : Chans} {mptr : MemberId}
    (step : s.Restatus mptr t) : serv.Undisturbed chptr s t := by
  cases step with
  | same => exact .refl s
  | other =>
      exact .of_modify rfl rfl (fun _ => rfl) (fun _ => rfl) fun _ _ => id

theorem exec_undisturbed {act : ChanAct}
    (found : s.findChannel name = some chptr) (calm : act.Calm name) :
    serv.Undisturbed chptr s (act.exec now s) := by
  cases act with
  | op mptr => exact .restatus serv (.op mptr)
  | deop mptr => exact .restatus serv (.deop mptr)
  | voice mptr => exact ⟨⟨rfl, fun _ => rfl⟩, rfl, id⟩
  | devoice mptr => exact ⟨⟨rfl, fun _ => rfl⟩, rfl, id⟩
  | setTopic target topic topicwho tsinfo =>
      exact .of_modify rfl rfl (fun _ => rfl) (fun _ => rfl) fun _ _ => id
  | addBan target mask =>
      exact .of_modify rfl rfl (fun _ => rfl) (fun _ => rfl) fun _ _ => id
  | join serviceP chname tsinfo mode override =>
      have same : chname = name := calm
      subst same
      exact (joinService_joined serv now serviceP tsinfo mode override found).1
  | _ => cases calm

theorem calm_along {acts : List ChanAct}
    (found : s.findChannel name = some chptr)
    (calm : ∀ act ∈ acts, act.Calm name) :
    serv.Undisturbed chptr s (execAll now acts s) ∧
      ∀ Allowed : Chans → ChanAct → Prop,
        (∀ u act, act ∈ acts → Allowed u act) →
        ChanAct.Along now (fun u => u.findChannel name = some chptr) Allowed
          acts s := by
  induction acts generalizing s with
  | nil => exact ⟨.refl s, fun _ _ => found⟩
  | cons act rest ih =>
      have first := exec_undisturbed serv now found (calm act (by simp))
      have still := (first.names.findChannel name).trans found
      obtain ⟨later, along⟩ := ih still fun other listed =>
        calm other (List.mem_cons_of_mem _ listed)
      refine ⟨first.trans later, fun Allowed allowed => ?_⟩
      exact ⟨found, allowed s act (by simp), along Allowed fun u other listed =>
        allowed u other (List.mem_cons_of_mem _ listed)⟩

theorem inhabits_of_join {acts : List ChanAct} {tsinfo : Int}
    {mode : Option Chmode} {override : Bool}
    (found : s.findChannel name = some chptr)
    (calm : ∀ act ∈ acts, act.Calm name)
    (joins : ChanAct.join serv.self name tsinfo mode override ∈ acts) :
    serv.isInhabiting (execAll now acts s) chptr = true := by
  obtain ⟨before, after, rfl⟩ := List.append_of_mem joins
  have first : serv.Undisturbed chptr s (execAll now before s) :=
    (calm_along serv now found fun act listed =>
      calm act (List.mem_append_left _ listed)).1
  have still := (first.names.findChannel name).trans found
  obtain ⟨joined, inside⟩ :=
    joinService_joined serv now serv.self tsinfo mode override still
  have last := (calm_along serv now
    ((joined.names.findChannel name).trans still) fun act listed =>
      calm act (List.mem_append_right _ (List.mem_cons_of_mem _ listed))).1
  rw [execAll_append]
  exact last.inhabits (inside rfl)

end Calm

/-- A loop over members of the channel: a turn kicks its member once and last,
after the service joined if nobody else is left, or kicks nobody. -/
structure Kicks (serv : ChanServ) (name : CString) (chptr : ChannelId)
    (turn : MemberId → Chans → List ChanAct)
    (pick : MemberId → Chans → Option Kick) : Prop where
  about : ∀ m s, ∀ act ∈ turn m s, About m act
  spares : ∀ m s, pick m s = none → ∀ act ∈ turn m s, act.Calm name
  kicks : ∀ m s kick, pick m s = some kick → kick.mptr = m ∧
    (∃ member, s.member.cell m = some member ∧
      kick.clientP = member.clientP) ∧
    ∃ before, turn m s = before ++ [.kick m] ∧
      (∀ act ∈ before, act.Calm name) ∧
      ((s.usersOf chptr).length = 1 → ∃ tsinfo mode override,
        ChanAct.join serv.self name tsinfo mode override ∈ before)

def KickAllowed (serv : ChanServ) (chptr : ChannelId) (s : Chans)
    (act : ChanAct) : Prop :=
  ∀ m, act = .kick m → s.usersOf chptr = [m] →
    serv.isInhabiting s chptr = true

theorem calm_allowed {act : ChanAct} (calm : act.Calm name) (s : Chans) :
    serv.KickAllowed chptr s act := by
  rintro m rfl
  cases calm

/-- Behind a kick that is allowed there is somebody left. -/
theorem delChmember_drops {m : MemberId} {member : Chmember}
    (inv : Chans.Inv (fun _ => True) s)
    (used : s.member.cell m = some member) (seated : member.chptr = chptr)
    (safe : s.usersOf chptr = [m] → serv.isInhabiting s chptr = true) :
    ∃ ch, s.channel.cell chptr = some ch ∧
      ¬(Dlink.delete m ch.users = [] ∧ ch.services = []) ∧
      s.delChmember m = Chans.Inv.dropChmember s m member := by
  subst seated
  obtain ⟨ch, there⟩ := inv.owner m member used
  have listed : m ∈ ch.users :=
    ((inv.users _ ch there).mem_iff m).mpr ⟨member, used, rfl⟩
  rw [Chans.usersOf_eq there] at safe
  have kept : ¬(Dlink.delete m ch.users = [] ∧ ch.services = []) := by
    rintro ⟨none_, noService⟩
    have alone : ch.users = [m] := by
      have length : (ch.users.erase m).length = ch.users.length - 1 :=
        List.length_erase_of_mem listed
      have zero : (ch.users.erase m).length = 0 :=
        List.length_eq_zero_iff.mpr none_
      have positive := List.length_pos_of_mem listed
      obtain ⟨only, single⟩ := List.length_eq_one_iff.mp
        (by omega : ch.users.length = 1)
      rw [single, List.mem_singleton] at listed
      rw [single, listed]
    have inside := safe alone
    simp [isInhabiting, there, noService, Dlink.find] at inside
  have delisted : (Chans.Inv.delist m member.isOpped ch).users =
      Dlink.delete m ch.users ∧
      (Chans.Inv.delist m member.isOpped ch).services = ch.services := by
    unfold Chans.Inv.delist
    split <;> exact ⟨rfl, rfl⟩
  have dropped : (Chans.Inv.dropChmember s m member).channel.cell
      member.chptr = some (Chans.Inv.delist m member.isOpped ch) := by
    simp [Chans.Inv.dropChmember, there]
  refine ⟨ch, there, kept, ?_⟩
  rw [Chans.Inv.delChmember_eq used, Chans.freeIfEmpty, dropped]
  refine if_neg fun empty => kept ?_
  simpa [delisted.1, delisted.2] using empty

theorem delist_kept (m : MemberId) (opped : Bool) (ch : Channel) :
    Chans.Inv.delist m opped ch =
      { ch with
        users := Dlink.delete m ch.users
        usersOpped := (Chans.Inv.delist m opped ch).usersOpped
        usersUnopped := (Chans.Inv.delist m opped ch).usersUnopped } := by
  unfold Chans.Inv.delist
  split <;> rfl

theorem delChmember_stays {m : MemberId} {member : Chmember}
    (inv : Chans.Inv (fun _ => True) s)
    (used : s.member.cell m = some member) (seated : member.chptr = chptr)
    (safe : s.usersOf chptr = [m] → serv.isInhabiting s chptr = true) :
    SameNames s (s.delChmember m) ∧
      (s.delChmember m).usersOf chptr =
        Dlink.delete m (s.usersOf chptr) := by
  obtain ⟨ch, there, -, stays⟩ := delChmember_drops inv used seated safe
  subst seated
  have dropped : (Chans.Inv.dropChmember s m member).channel.cell
      member.chptr = some (Chans.Inv.delist m member.isOpped ch) := by
    simp [Chans.Inv.dropChmember, there]
  rw [stays, Chans.usersOf_eq there]
  refine ⟨SameNames.of_modify rfl rfl fun ch => ?_, ?_⟩
  · rw [delist_kept]
  · rw [Chans.usersOf_eq dropped, delist_kept]

theorem exec_seat {act : ChanAct} {m : MemberId} {after : Chmember}
    (narrow : act.isNarrow = true)
    (used : (act.exec now s).member.cell m = some after) :
    ∃ before, s.member.cell m = some before ∧ SameSeat before after := by
  by_cases about : act.mptr = some m
  · cases act with
    | op mptr =>
        cases about
        obtain ⟨before, there, seat, -⟩ := Chans.opChmember_own used
        exact ⟨before, there, seat⟩
    | deop mptr =>
        cases about
        obtain ⟨before, there, seat, -⟩ := Chans.deopChmember_own used
        exact ⟨before, there, seat⟩
    | voice mptr =>
        cases about
        obtain ⟨before, there, seat, -⟩ := Chans.voiceChmember_own used
        exact ⟨before, there, seat⟩
    | devoice mptr =>
        cases about
        obtain ⟨before, there, seat, -⟩ := Chans.devoiceChmember_own used
        exact ⟨before, there, seat⟩
    | kick mptr =>
        cases about
        have gone : (s.delChmember m).member.cell m = none :=
          (Chans.delChmember_cell m m s).trans (if_pos rfl)
        cases gone.symm.trans used
    | _ => cases about
  · rw [ChanAct.exec_cell_of_ne narrow about] at used
    exact ⟨after, used, .refl after⟩

theorem execAll_seat {acts : List ChanAct} {m : MemberId} {after : Chmember}
    (narrow : ∀ act ∈ acts, act.isNarrow = true)
    (used : (execAll now acts s).member.cell m = some after) :
    ∃ before, s.member.cell m = some before ∧ SameSeat before after := by
  induction acts generalizing s with
  | nil => exact ⟨after, used, .refl after⟩
  | cons act rest ih =>
      obtain ⟨middle, there, seat⟩ := ih
        (fun other listed => narrow other (List.mem_cons_of_mem _ listed)) used
      obtain ⟨before, was, first⟩ := exec_seat (narrow act (by simp)) there
      exact ⟨before, was, first.trans seat⟩

section Turns

variable {turn : MemberId → Chans → List ChanAct}
  {pick : MemberId → Chans → Option Kick} {m : MemberId} {member : Chmember}

/-- One turn: whoever is picked is kicked, once, and the channel stays. -/
theorem Kicks.turn_step (kicks : serv.Kicks name chptr turn pick)
    (now : Int) (inv : Chans.Inv (fun _ => True) s)
    (found : s.findChannel name = some chptr)
    (used : s.member.cell m = some member) (seated : member.chptr = chptr) :
    ChanAct.Along now (fun u => u.findChannel name = some chptr)
        (serv.KickAllowed chptr) (turn m s) s ∧
      SameNames s (execAll now (turn m s) s) ∧
      (execAll now (turn m s) s).usersOf chptr =
        (pick m s).elim (s.usersOf chptr)
          (fun _ => Dlink.delete m (s.usersOf chptr)) ∧
      (turn m s).filterMap ChanAct.kicked =
        (pick m s).toList.map Kick.mptr := by
  cases picked : pick m s with
  | none =>
      have calm := kicks.spares m s picked
      obtain ⟨undisturbed, along⟩ := calm_along serv now found calm
      refine ⟨along _ fun u act listed => calm_allowed (calm act listed) u,
        undisturbed.names, undisturbed.users, ?_⟩
      refine List.filterMap_eq_nil_iff.mpr fun act listed => ?_
      have calm := calm act listed
      cases act <;> first | rfl | cases calm
  | some kick =>
      obtain ⟨same, -, before, acts, calm, joins⟩ := kicks.kicks m s kick picked
      obtain ⟨undisturbed, along⟩ := calm_along serv now found calm
      have about := kicks.about m s
      rw [acts] at about ⊢
      have still := (undisturbed.names.findChannel name).trans found
      -- the acts before the kick took nobody out of the channel
      obtain ⟨other, used', seated'⟩ : ∃ other,
          (execAll now before s).member.cell m = some other ∧
            other.chptr = chptr := by
        refine ((inv.execAll now before).mem_usersOf chptr m).mp ?_
        rw [undisturbed.users]
        exact (inv.mem_usersOf chptr m).mpr ⟨member, used, seated⟩
      have safe : (execAll now before s).usersOf chptr = [m] →
          serv.isInhabiting (execAll now before s) chptr = true := by
        intro alone
        rw [undisturbed.users] at alone
        obtain ⟨tsinfo, mode, override, joins⟩ := joins (by rw [alone]; rfl)
        exact inhabits_of_join serv now found calm joins
      obtain ⟨names, users⟩ := delChmember_stays (inv.execAll now before) used'
        seated' safe
      have last : execAll now (before ++ [.kick m]) s =
          (execAll now before s).delChmember m := execAll_append before _
      rw [last]
      refine ⟨?_, undisturbed.names.trans names, ?_, ?_⟩
      · refine (along _ fun u act listed =>
          calm_allowed (calm act listed) u).append ⟨still, ?_, ?_⟩
        · intro other equal alone
          cases equal
          exact safe alone
        · exact (names.findChannel name).trans still
      · rw [users, undisturbed.users]
        rfl
      · have none_ : before.filterMap ChanAct.kicked = [] := by
          refine List.filterMap_eq_nil_iff.mpr fun act listed => ?_
          have calm := calm act listed
          cases act <;> first | rfl | cases calm
        rw [List.filterMap_append, none_]
        simp [ChanAct.kicked, same]

structure Kicked (serv : ChanServ) (now : Int) (name : CString)
    (chptr : ChannelId) (pick : MemberId → Chans → Option Kick)
    (members : List MemberId) (s : Chans) (acts : List ChanAct)
    (kicks : List Kick) : Prop where
  along : ChanAct.Along now (fun u => u.findChannel name = some chptr)
    (serv.KickAllowed chptr) acts s
  once : acts.filterMap ChanAct.kicked = kicks.map Kick.mptr
  sublist : (kicks.map Kick.mptr).Sublist members
  picked : ∀ kick ∈ kicks, ∃ u, pick kick.mptr u = some kick
  client : ∀ kick ∈ kicks, ∃ member, s.member.cell kick.mptr = some member ∧
    kick.clientP = member.clientP
  users : ∀ m ∈ (execAll now acts s).usersOf chptr,
    m ∈ s.usersOf chptr ∧ m ∉ kicks.map Kick.mptr

theorem Kicks.run (kicks : serv.Kicks name chptr turn pick)
    (now : Int) {members : List MemberId} (inv : Chans.Inv (fun _ => True) s)
    (found : s.findChannel name = some chptr)
    (seated : ∀ m ∈ members, ∃ member,
      s.member.cell m = some member ∧ member.chptr = chptr)
    (nodup : members.Nodup) :
    serv.Kicked now name chptr pick members s
      (ChanAct.inTurn now turn members s)
      (ChanAct.kicksInTurn now turn pick members s) := by
  induction members generalizing s with
  | nil =>
      exact ⟨found, rfl, .slnil, by simp [ChanAct.kicksInTurn],
        by simp [ChanAct.kicksInTurn],
        fun m listed => ⟨listed, by simp [ChanAct.kicksInTurn]⟩⟩
  | cons first rest ih =>
      obtain ⟨fresh, nodup⟩ := List.nodup_cons.mp nodup
      obtain ⟨member, used, here⟩ := seated first (by simp)
      obtain ⟨along, names, users, once⟩ :=
        kicks.turn_step now inv found used here
      have later := ih (inv.execAll now (turn first s))
        ((names.findChannel name).trans found)
        (fun m listed => by
          have other : m ≠ first := fun same => fresh (same ▸ listed)
          rw [ChanAct.execAll_other (kicks.about first s) other]
          exact seated m (List.mem_cons_of_mem _ listed))
        nodup
      have picked : ∀ kick ∈ (pick first s).toList, pick first s = some kick ∧
          kick.mptr = first := by
        intro kick listed
        have some_ := Option.mem_toList.mp listed
        exact ⟨some_, (kicks.kicks first s kick some_).1⟩
      refine ⟨along.append later.along, ?_, ?_, ?_, ?_, ?_⟩
      · rw [ChanAct.inTurn, List.filterMap_append, once, later.once,
          ChanAct.kicksInTurn, List.map_append]
      · rw [ChanAct.kicksInTurn, List.map_append]
        cases pickedFirst : pick first s with
        | none => exact later.sublist.cons first
        | some kick =>
            have same := (kicks.kicks first s kick pickedFirst).1
            rw [Option.toList_some, List.map_singleton, same]
            exact later.sublist.cons_cons first
      · intro kick listed
        obtain now_ | after := List.mem_append.mp listed
        · obtain ⟨some_, same⟩ := picked kick now_
          exact ⟨s, same ▸ some_⟩
        · exact later.picked kick after
      · intro kick listed
        obtain now_ | after := List.mem_append.mp listed
        · obtain ⟨some_, same⟩ := picked kick now_
          rw [same]
          exact (kicks.kicks first s kick some_).2.1
        · obtain ⟨other, there, client⟩ := later.client kick after
          have inside := later.sublist.subset (List.mem_map_of_mem after)
          have different : kick.mptr ≠ first := fun same =>
            fresh (same ▸ inside)
          rw [ChanAct.execAll_other (kicks.about first s) different] at there
          exact ⟨other, there, client⟩
      · intro m listed
        rw [ChanAct.execAll_inTurn_cons] at listed
        obtain ⟨inside, unkicked⟩ := later.users m listed
        rw [users] at inside
        rw [ChanAct.kicksInTurn, List.map_append, List.mem_append, not_or]
        cases pickedFirst : pick first s with
        | none =>
            rw [pickedFirst] at inside
            exact ⟨inside, by simp, unkicked⟩
        | some kick =>
            rw [pickedFirst] at inside
            have same := (kicks.kicks first s kick pickedFirst).1
            obtain ⟨other, was⟩ :=
              (Dlink.mem_delete (inv.nodup_usersOf chptr)).mp inside
            exact ⟨was, by simpa [same] using other, unkicked⟩

end Turns

section Loops

variable {env : Env} {clients : Clients} {target : ChanRegId} {reg : ChanReg}
  {ban : BanReg} {reason : CString}

theorem enableInhabit_calm {autojoin : Bool}
    (named : serv.regs.chanName target = name) :
    ∀ act ∈ serv.enableInhabit env now target chptr autojoin s,
      act.Calm name :=
  enableInhabit_forall (fun _ _ _ => named) fun _ _ => trivial

theorem inhabitIfAlone_calm (env : Env) (now : Int) (s : Chans)
    (chptr : ChannelId) (named : serv.regs.chanName target = name) :
    (∀ act ∈ serv.inhabitIfAlone env now target chptr s, act.Calm name) ∧
      ((s.usersOf chptr).length = 1 → ∃ tsinfo mode override,
        ChanAct.join serv.self name tsinfo mode override ∈
          serv.inhabitIfAlone env now target chptr s) := by
  constructor
  · exact inhabitIfAlone_forall (enableInhabit_calm named)
  · intro alone
    rw [inhabitIfAlone, if_pos alone]
    unfold enableInhabit
    cases there : s.channel.cell chptr with
    | none => simp [Chans.usersOf, there] at alone
    | some ch =>
        subst named
        exact ⟨_, _, _, List.mem_cons_self⟩

theorem joinTurn_kicks (env : Env) (now : Int) (clients : Clients)
    (reg : ChanReg) (chptr : ChannelId)
    (named : serv.regs.chanName target = name) :
    serv.Kicks name chptr (serv.joinTurn env now clients target reg chptr)
      (serv.joinPick now clients target reg chptr) where
  about := fun m s => joinTurn_about
  spares := by
    intro m s none_
    unfold joinPick at none_
    unfold joinTurn
    split
    · rename_i member ch used there
      rw [used, there] at none_
      dsimp only at none_ ⊢
      rw [Option.map_eq_none_iff] at none_
      rw [none_]
      intro act among
      obtain ⟨stage, -, u, inside⟩ := ChanAct.mem_inTurn among
      exact welcome_forall ⟨trivial, trivial, trivial, trivial⟩
        (inhabitIfAlone_calm env now u chptr named).1
        (fun _ _ => enableInhabit_calm named) stage act inside
    · simp
  kicks := by
    intro m s kick picked
    unfold joinPick at picked
    split at picked
    · rename_i member ch used there
      unfold joinTurn
      obtain ⟨ban, hit, rfl⟩ := Option.map_eq_some_iff.mp picked
      obtain ⟨calm, joins⟩ := inhabitIfAlone_calm env now s chptr named
      rw [used, there]
      dsimp only
      rw [hit]
      refine ⟨rfl, ⟨member, rfl, rfl⟩, _, rfl, ?_, fun alone => ?_⟩
      · exact beforeKick_forall trivial trivial calm
      · obtain ⟨tsinfo, mode, override, listed⟩ := joins alone
        exact ⟨tsinfo, mode, override, List.mem_append_right _ listed⟩
    · cases picked

theorem addbanTurn_kicks (env : Env) (now : Int) (clients : Clients)
    (ban : BanReg) (reason : CString) (chptr : ChannelId)
    (named : serv.regs.chanName target = name) :
    serv.Kicks name chptr
      (serv.addbanTurn env now clients target chptr ban reason)
      (serv.addbanPick clients target chptr ban reason) where
  about := by
    intro m s act among
    unfold addbanTurn at among
    split at among
    · simp only [List.mem_append] at among
      obtain (deop | inhabit) | kick := among
      · split at deop
        · obtain rfl := List.mem_singleton.mp deop
          exact ⟨rfl, fun other same => (Option.some.inj same).symm⟩
        · cases deop
      · exact (inhabitIfAlone_spares act inhabit).about
      · obtain rfl := List.mem_singleton.mp kick
        exact ⟨rfl, fun other same => (Option.some.inj same).symm⟩
    · cases among
  spares := by
    intro m s none_
    unfold addbanTurn
    rw [none_]
    simp
  kicks := by
    intro m s kick picked
    obtain ⟨calm, joins⟩ := inhabitIfAlone_calm env now s chptr named
    have seat : kick.mptr = m ∧ ∃ member, s.member.cell m = some member ∧
        kick.clientP = member.clientP := by
      unfold addbanPick at picked
      split at picked
      · rename_i member ch used there
        split at picked
        · cases picked
        · split at picked
          · cases picked
          · split at picked
            · cases picked
            · cases picked
              exact ⟨rfl, member, used, rfl⟩
      · cases picked
    obtain ⟨same, member, used, client⟩ := seat
    unfold addbanTurn
    rw [picked, used]
    refine ⟨same, ⟨member, rfl, client⟩, _, rfl, ?_, fun alone => ?_⟩
    · intro act among
      obtain deop | inhabit := List.mem_append.mp among
      · split at deop
        · obtain rfl := List.mem_singleton.mp deop
          trivial
        · cases deop
      · exact calm act inhabit
    · obtain ⟨tsinfo, mode, override, listed⟩ := joins alone
      exact ⟨tsinfo, mode, override, List.mem_append_right _ listed⟩

theorem joinPick_hits {kick : Kick} {m : MemberId}
    (picked : serv.joinPick now clients target reg chptr m s = some kick) :
    kick.ban ∈ reg.bans ∧ kick.ban.expired now = false ∧
      match_ kick.ban.mask (clients.maskOf kick.clientP) = true ∧
      kick.reason = kick.ban.reason := by
  unfold joinPick at picked
  split at picked
  · obtain ⟨ban, hit, rfl⟩ := Option.map_eq_some_iff.mp picked
    unfold Regs.hitBan at hit
    split at hit
    · cases hit
    · rename_i other found
      split at hit
      · cases hit
      · cases hit
        have passes := List.find?_some found
        simp only [Bool.and_eq_true, Bool.not_eq_true'] at passes
        exact ⟨List.mem_of_find?_eq_some found, passes.1.1, passes.1.2, rfl⟩
  · cases picked

theorem addbanPick_hits {kick : Kick} {m : MemberId}
    (picked : serv.addbanPick clients target chptr ban reason m s = some kick) :
    kick.ban = ban ∧ kick.reason = reason ∧
      match_ kick.ban.mask (clients.maskOf kick.clientP) = true := by
  unfold addbanPick at picked
  split at picked
  · split at picked
    · cases picked
    · rename_i matched
      split at picked
      · cases picked
      · split at picked
        · cases picked
        · cases picked
          exact ⟨rfl, rfl, by simpa using matched⟩
  · cases picked

def SparesAll (serv : ChanServ) (clients : Clients) (target : ChanRegId)
    (chptr : ChannelId) (ban : BanReg) (s : Chans) : Prop :=
  lacksBan s chptr ban.mask = false ∨
    ∀ m ∈ s.usersOf chptr,
      serv.addbanPick clients target chptr ban [] m s = none

theorem addbanPick_eq_none (m : MemberId) :
    serv.addbanPick clients target chptr ban reason m s = none ↔
      serv.addbanPick clients target chptr ban [] m s = none := by
  unfold addbanPick
  split
  · split
    · exact Iff.rfl
    · split
      · exact Iff.rfl
      · split
        · exact Iff.rfl
        · exact ⟨fun same => (by cases same), fun same => (by cases same)⟩
  · exact Iff.rfl

theorem addbanKicks_eq_nil :
    serv.addbanKicks env now clients target chptr ban reason s = [] ↔
      serv.SparesAll clients target chptr ban s := by
  unfold addbanKicks SparesAll
  cases lacks : lacksBan s chptr ban.mask with
  | false => simp
  | true =>
      simp only [if_true, reduceCtorEq, false_or]
      induction s.usersOf chptr with
      | nil => simp [ChanAct.kicksInTurn]
      | cons m rest ih =>
          rw [ChanAct.kicksInTurn, List.append_eq_nil_iff, List.forall_mem_cons,
            ← addbanPick_eq_none m]
          cases picked :
              serv.addbanPick clients target chptr ban reason m s with
          | none =>
              have idle : serv.addbanTurn env now clients target chptr ban
                  reason m s = [] := by
                unfold addbanTurn
                rw [picked]
              rw [idle]
              simpa [execAll] using ih
          | some kick => simp

end Loops

/-- Nobody is kicked out of a channel that goes with him, and every kicked user
is out of the channel, with one line for him. -/
structure KickedOut (serv : ChanServ) (now : Int) (s : State)
    (chptr : ChannelId) (acts : List ChanAct) (kicks : List Kick) : Prop where
  along : ChanAct.Along now (fun u => ∃ ch, u.channel.cell chptr = some ch)
    (serv.KickAllowed chptr) acts s.chans
  once : acts.filterMap ChanAct.kicked = kicks.map Kick.mptr
  distinct : (kicks.map Kick.clientP).Nodup
  gone : ∀ kick ∈ kicks, ¬(execAll now acts s.chans).IsIn chptr kick.clientP
  sent : serv.kickLines s chptr kicks = some (kicks.map fun kick =>
    Kickbuild.kickLine (s.modeSource serv.self)
      (s.chans.channel.get chptr).name (s.clients.uidText kick.clientP)
      kick.reason)

structure KickedSafely (serv : ChanServ) (now : Int) (s : State)
    (chptr : ChannelId) (acts : List ChanAct) (kicks : List Kick) : Prop
    extends serv.KickedOut now s chptr acts kicks where
  lines : serv.kickLines s chptr kicks = some (kicks.map fun kick =>
    Kickbuild.kickLine (s.modeSource serv.self)
      (s.chans.channel.get chptr).name (s.clients.uidText kick.clientP)
      kick.ban.reason)

section Safely

variable {s : State} {ch : Channel} {members : List MemberId}
  {acts : List ChanAct} {kicks : List Kick}
  {pick : MemberId → Chans → Option Kick}

theorem KickedOut.safely_iff
    (out : serv.KickedOut now s chptr acts kicks) :
    serv.KickedSafely now s chptr acts kicks ↔
      ∀ kick ∈ kicks, kick.reason = kick.ban.reason := by
  constructor
  · intro safely kick listed
    have same := Option.some.inj (out.sent.symm.trans safely.lines)
    have line := List.map_inj_left.mp same kick listed
    exact List.append_cancel_left line
  · intro same
    refine ⟨out, out.sent.trans (congrArg some ?_)⟩
    exact List.map_congr_left fun kick listed => by rw [same kick listed]

theorem Kicked.out
    (kicked : serv.Kicked now name chptr pick members s.chans acts kicks)
    (inv : Chans.Inv (fun _ => True) s.chans)
    (seated : ∀ m ∈ members, ∃ member,
      s.chans.member.cell m = some member ∧ member.chptr = chptr)
    (nodup : members.Nodup) (narrow : ∀ act ∈ acts, act.isNarrow = true) :
    serv.KickedOut now s chptr acts kicks := by
  have members_ : (kicks.map Kick.mptr).Nodup := nodup.sublist kicked.sublist
  have owner : ∀ kick ∈ kicks, ∃ member,
      s.chans.member.cell kick.mptr = some member ∧ member.chptr = chptr ∧
        kick.clientP = member.clientP := by
    intro kick listed
    obtain ⟨member, used, client⟩ := kicked.client kick listed
    obtain ⟨other, there, inside⟩ := seated kick.mptr
      (kicked.sublist.subset (List.mem_map_of_mem listed))
    rw [used, Option.some.injEq] at there
    subst there
    exact ⟨member, used, inside, client⟩
  refine ⟨?_, kicked.once, ?_, ?_, ?_⟩
  · refine kicked.along.mono fun u found => ?_
    obtain ⟨ch, there, -⟩ := Chans.exists_of_findChannel found
    exact ⟨ch, there⟩
  · refine List.Nodup.map_on (fun first one second two same => ?_)
      (List.Nodup.of_map _ members_)
    obtain ⟨left, usedLeft, inLeft, ofLeft⟩ := owner first one
    obtain ⟨right, usedRight, inRight, ofRight⟩ := owner second two
    have equal : first.mptr = second.mptr :=
      inv.unique _ _ left right usedLeft usedRight
        (inLeft.trans inRight.symm) (ofLeft.symm.trans (same.trans ofRight))
    exact List.inj_on_of_nodup_map members_ one two equal
  · rintro kick listed ⟨m, inside, after, there, client, -⟩
    obtain ⟨before, unkicked⟩ := kicked.users m inside
    obtain ⟨was, used, seat⟩ := execAll_seat narrow there
    obtain ⟨member, usedKick, inKick, ofKick⟩ := owner kick listed
    obtain ⟨other, usedOther, inOther⟩ := (inv.mem_usersOf chptr m).mp before
    rw [used, Option.some.injEq] at usedOther
    subst usedOther
    have inOther : was.chptr = chptr := inOther
    have equal : m = kick.mptr :=
      inv.unique _ _ was member used usedKick (inOther.trans inKick.symm)
        (seat.clientP.symm.trans (client.trans ofKick))
    exact unkicked (equal ▸ List.mem_map_of_mem listed)
  · exact Kickbuild.finish_added _ _
      (fun kick : Kick => s.clients.uidText kick.clientP)
      Kick.reason kicks

theorem findChannel_of_irccmp (named : s.chans.Named)
    (there : s.chans.channel.cell chptr = some ch)
    (same : irccmp ch.name name = true) :
    s.chans.findChannel name = some chptr := by
  cases found : s.chans.findChannel name with
  | none =>
      rw [named.irccmp_eq_false found there] at same
      cases same
  | some other =>
      obtain ⟨face, used, equal⟩ := Chans.exists_of_findChannel found
      have both : irccmp face.name ch.name = true := by
        rw [irccmp_iff] at same equal ⊢
        exact equal.trans same.symm
      rw [named.distinct other chptr face ch used there both]

theorem findChannel_chanName {target : ChanRegId} {chname : CString}
    (named : s.chans.Named)
    (live : s.chans.findChannel chname = some chptr)
    (found : serv.regs.findChannelReg chname = some target) :
    s.chans.findChannel (serv.regs.chanName target) = some chptr := by
  obtain ⟨ch, there, equal⟩ := Chans.exists_of_findChannel live
  have registered := List.find?_some found
  unfold Regs.chanNamed at registered
  cases used : serv.regs.chan.cell target with
  | none =>
      rw [used] at registered
      cases registered
  | some reg =>
      rw [used] at registered
      have same := (Bool.and_eq_true _ _ ▸ registered).2
      refine findChannel_of_irccmp named there ?_
      rw [Regs.chanName, used]
      rw [irccmp_iff] at same equal ⊢
      exact equal.trans same.symm

theorem Kicks.narrow {turn : MemberId → Chans → List ChanAct} {chans : Chans}
    (kicks : serv.Kicks name chptr turn pick) :
    ∀ act ∈ ChanAct.inTurn now turn members chans, act.isNarrow = true := by
  intro act among
  obtain ⟨m, -, u, inside⟩ := ChanAct.mem_inTurn among
  exact (kicks.about m u act inside).narrow

theorem Kicked.addBan
    (kicked : serv.Kicked now name chptr pick members s.chans acts kicks)
    (mask : CString) :
    serv.Kicked now name chptr pick members s.chans
      (acts ++ [.addBan chptr mask]) kicks := by
  have found := kicked.along.finish
  have set : serv.Undisturbed chptr _ (ChanAct.exec now
      (execAll now acts s.chans) (.addBan chptr mask)) :=
    exec_undisturbed serv now found trivial
  have last : execAll now (acts ++ [.addBan chptr mask]) s.chans =
      ChanAct.exec now (execAll now acts s.chans) (.addBan chptr mask) :=
    execAll_append acts _
  refine { kicked with along := ?_, once := ?_, users := ?_ }
  · refine kicked.along.append ⟨found, fun m same => (by cases same), ?_⟩
    exact (set.names.findChannel name).trans found
  · rw [List.filterMap_append, kicked.once]
    simp [ChanAct.kicked]
  · rw [last, set.users]
    exact kicked.users

theorem hChanservJoin_kicks (inv : Chans.Inv (fun _ => True) s.chans)
    (named : s.chans.Named) (there : s.chans.channel.cell chptr = some ch)
    (seated : ∀ m ∈ members, ∃ member,
      s.chans.member.cell m = some member ∧ member.chptr = chptr)
    (nodup : members.Nodup) (env : Env) :
    serv.KickedSafely now s chptr
        (serv.hChanservJoin env now s.clients s.chans chptr members)
        (serv.joinKicks env now s.clients s.chans chptr members) ∧
      ∀ kick ∈ serv.joinKicks env now s.clients s.chans chptr members,
        ∃ target reg, serv.openReg now s.chans chptr = some (target, reg) ∧
          kick.ban ∈ reg.bans ∧ kick.ban.expired now = false ∧
          match_ kick.ban.mask (s.clients.maskOf kick.clientP) = true := by
  unfold hChanservJoin joinKicks
  cases opened : serv.openReg now s.chans chptr with
  | none =>
      refine ⟨⟨⟨⟨ch, there⟩, rfl, List.nodup_nil, ?_, rfl⟩, rfl⟩, ?_⟩
      · simp
      · simp
  | some found =>
      obtain ⟨target, reg⟩ := found
      dsimp only
      have registered : s.chans.findChannel (serv.regs.chanName target) =
          some chptr :=
        findChannel_chanName named (named.findChannel there)
          (serv.openReg_target there opened)
      have kicks := joinTurn_kicks env now s.clients reg chptr
        (rfl : serv.regs.chanName target = _)
      have kicked := kicks.run now inv registered seated nodup
      have hits : ∀ kick ∈ ChanAct.kicksInTurn now
          (serv.joinTurn env now s.clients target reg chptr)
          (serv.joinPick now s.clients target reg chptr) members s.chans,
          kick.ban ∈ reg.bans ∧ kick.ban.expired now = false ∧
            match_ kick.ban.mask (s.clients.maskOf kick.clientP) = true ∧
            kick.reason = kick.ban.reason := by
        intro kick listed
        obtain ⟨u, picked⟩ := kicked.picked kick listed
        exact joinPick_hits picked
      refine ⟨(kicked.out inv seated nodup kicks.narrow).safely_iff.mpr
        fun kick listed => (hits kick listed).2.2.2, ?_⟩
      intro kick listed
      obtain ⟨inside, unexpired, matched, -⟩ := hits kick listed
      exact ⟨target, reg, rfl, inside, unexpired, matched⟩

theorem addban_kicks (inv : Chans.Inv (fun _ => True) s.chans)
    (named : s.chans.Named) {target : ChanRegId} {chname : CString}
    (live : s.chans.findChannel chname = some chptr)
    (found : serv.regs.findChannelReg chname = some target) (env : Env)
    (ban : BanReg) (reason : CString) :
    serv.KickedOut now s chptr
        (serv.addbanActs env now s.clients target chptr ban reason s.chans)
        (serv.addbanKicks env now s.clients target chptr ban reason s.chans) ∧
      ∀ kick ∈
          serv.addbanKicks env now s.clients target chptr ban reason s.chans,
        kick.ban = ban ∧ kick.reason = reason ∧
          match_ ban.mask (s.clients.maskOf kick.clientP) = true := by
  obtain ⟨ch, there, -⟩ := Chans.exists_of_findChannel live
  have registered := findChannel_chanName named live found
  have kicks := addbanTurn_kicks env now s.clients ban reason chptr
    (rfl : serv.regs.chanName target = _)
  have seated : ∀ m ∈ s.chans.usersOf chptr, ∃ member,
      s.chans.member.cell m = some member ∧ member.chptr = chptr :=
    fun m listed => (inv.mem_usersOf chptr m).mp listed
  have nodup := inv.nodup_usersOf chptr
  have kicked := kicks.run now inv registered seated nodup
  unfold addbanActs addbanKicks
  split
  · dsimp only
    refine ⟨?_, fun kick listed => ?_⟩
    · split
      · exact kicked.out inv seated nodup kicks.narrow
      · refine (kicked.addBan ban.mask).out inv seated nodup ?_
        intro act among
        obtain turn | mask := List.mem_append.mp among
        · exact kicks.narrow act turn
        · obtain rfl := List.mem_singleton.mp mask
          rfl
    · obtain ⟨u, picked⟩ := kicked.picked kick listed
      obtain ⟨same, given, matched⟩ := addbanPick_hits picked
      exact ⟨same, given, same ▸ matched⟩
  · refine ⟨⟨⟨ch, there⟩, rfl, List.nodup_nil, ?_, rfl⟩, ?_⟩
    · simp
    · simp

theorem newBan_reason {conf : ServConfig} {level : Int} {username : CString}
    {parv : AddbanArgs} {bans : List BanReg} {ban : BanReg}
    (made : Regs.newBan conf now level username parv bans = some ban) :
    ban.reason =
      if parv.reason.isEmpty then "No Reason".toList else parv.reason := by
  unfold Regs.newBan at made
  simp only at made
  split at made
  · cases made
  · split at made
    · cases made
    · split at made
      · cases made
      · split at made
        · cases made
        · cases made
          rfl

theorem addban_safely_iff (inv : Chans.Inv (fun _ => True) s.chans)
    (named : s.chans.Named) {target : ChanRegId} {chname : CString}
    (live : s.chans.findChannel chname = some chptr)
    (found : serv.regs.findChannelReg chname = some target) (env : Env)
    {ban : BanReg} {reason : CString}
    (stored : ban.reason =
      if reason.isEmpty then "No Reason".toList else reason) :
    serv.KickedSafely now s chptr
        (serv.addbanActs env now s.clients target chptr ban reason s.chans)
        (serv.addbanKicks env now s.clients target chptr ban reason s.chans) ↔
      reason ≠ [] ∨ serv.SparesAll s.clients target chptr ban s.chans := by
  obtain ⟨out, kicks⟩ := addban_kicks inv named live found env ban reason
  have spares : serv.addbanKicks env now s.clients target chptr ban reason
      s.chans = [] ↔ serv.SparesAll s.clients target chptr ban s.chans :=
    addbanKicks_eq_nil
  rw [out.safely_iff, ← spares]
  constructor
  · intro same
    by_cases given : reason = []
    · refine .inr (List.eq_nil_iff_forall_not_mem.mpr fun kick listed => ?_)
      obtain ⟨ofBan, ofReason, -⟩ := kicks kick listed
      have equal := same kick listed
      rw [ofBan, ofReason, stored, given] at equal
      revert equal
      decide
    · exact .inl given
  · rintro (given | spared) kick listed
    · obtain ⟨ofBan, ofReason, -⟩ := kicks kick listed
      have some_ : reason.isEmpty = false := by
        cases reason with
        | nil => exact absurd rfl given
        | cons c rest => rfl
      rw [ofBan, ofReason, stored, some_]
      rfl
    · rw [spared] at listed
      cases listed

/-- Neither loop frees the channel that it works on. ChanServ is in it before
the last user goes, and every user who is kicked has one line. It has the reason
of a ban that matches him when he joins, and by `ADDBAN` if and only if a reason
was given or nobody is kicked. -/
theorem kicks_safely_iff (serv : ChanServ) (env : Env) (now : Int) {s : State}
    {chptr : ChannelId} {ch : Channel}
    (inv : Chans.Inv (fun _ => True) s.chans) (named : s.chans.Named)
    (there : s.chans.channel.cell chptr = some ch) :
    (∀ members : List MemberId,
      (∀ m ∈ members, ∃ member,
        s.chans.member.cell m = some member ∧ member.chptr = chptr) →
      members.Nodup →
      serv.KickedSafely now s chptr
          (serv.hChanservJoin env now s.clients s.chans chptr members)
          (serv.joinKicks env now s.clients s.chans chptr members) ∧
        ∀ kick ∈ serv.joinKicks env now s.clients s.chans chptr members,
          ∃ target reg, serv.openReg now s.chans chptr = some (target, reg) ∧
            kick.ban ∈ reg.bans ∧ kick.ban.expired now = false ∧
            match_ kick.ban.mask (s.clients.maskOf kick.clientP) = true) ∧
    ∀ chname target, s.chans.findChannel chname = some chptr →
      serv.regs.findChannelReg chname = some target →
      ∀ conf level username parv ban,
        Regs.newBan conf now level username parv (serv.regs.bansOf target) =
          some ban →
        (serv.KickedOut now s chptr
            (serv.addbanActs env now s.clients target chptr (parv.typed ban)
              parv.reason s.chans)
            (serv.addbanKicks env now s.clients target chptr (parv.typed ban)
              parv.reason s.chans) ∧
          ∀ kick ∈ serv.addbanKicks env now s.clients target chptr
              (parv.typed ban) parv.reason s.chans,
            kick.ban = parv.typed ban ∧
              match_ parv.mask (s.clients.maskOf kick.clientP) = true) ∧
        (serv.KickedSafely now s chptr
            (serv.addbanActs env now s.clients target chptr (parv.typed ban)
              parv.reason s.chans)
            (serv.addbanKicks env now s.clients target chptr (parv.typed ban)
              parv.reason s.chans) ↔
          parv.reason ≠ [] ∨
            serv.SparesAll s.clients target chptr (parv.typed ban)
              s.chans) := by
  refine ⟨fun _ seated nodup =>
    hChanservJoin_kicks inv named there seated nodup env, ?_⟩
  intro chname target live found conf level username parv ban made
  have stored : ban.reason =
      if parv.reason.isEmpty then "No Reason".toList else parv.reason :=
    newBan_reason made
  obtain ⟨out, kicks⟩ :=
    addban_kicks inv named live found env (parv.typed ban) parv.reason
  refine ⟨⟨out, fun kick listed => ?_⟩,
    addban_safely_iff inv named live found env stored⟩
  obtain ⟨same, -, matched⟩ := kicks kick listed
  exact ⟨same, matched⟩

end Safely

def bannedAlone : List Event :=
  linkUp
    [⟨":0AB UID two 1 5 +i u h 0 0ABAAAAAB :g".toList, false⟩,
      ⟨":0AB SJOIN 100 #a + :0ABAAAAAB".toList, false⟩]

def addbanOf (reason : CString) : AddbanArgs :=
  ⟨"#a".toList, "two!u@*".toList, "10".toList, reason, []⟩

/-- The ban that `addbanOf` makes. -/
def userBan (reason : CString) : BanReg :=
  makeBan "two!u@*".toList reason "lyra".toList 10 0

theorem newBan_addbanOf :
    (∀ reason ∈ [[], "spam".toList],
      Regs.newBan (setDefaultConf "services.".toList) 9 200 "lyra".toList
        (addbanOf reason) (State.strictChannel.regs.bansOf 0) =
          some (userBan reason)) ∧
    State.strictChannel.regs.findChannelReg "#a".toList = some 0 := by
  decide +kernel

theorem bannedAlone_run :
    ∃ s ch member, run (State.step .quiet)
        (State.start [State.chanserv] 300) bannedAlone = .ok s ∧
      Chans.Inv (fun _ => True) s.chans ∧ s.chans.Named ∧
      s.chans.channel.cell 0 = some ch ∧
      s.chans.findChannel "#a".toList = some 0 ∧
      s.chans.member.cell 0 = some member ∧ member.chptr = 0 ∧
      ((State.strictChannel.joinKicks .quiet 9 s.clients s.chans 0 [0]).map
        Kick.mptr = [0]) ∧
      ((State.strictChannel.addbanKicks .quiet 9 s.clients 0 0
        ((addbanOf []).typed (userBan [])) [] s.chans).map fun kick =>
          [kick.ban.reason, kick.reason]) =
        [["No Reason".toList, []]] := by
  have observed : (run (State.step .quiet) (State.start [State.chanserv] 300)
      bannedAlone).toOption.map (fun s =>
        ((State.strictChannel.joinKicks .quiet 9 s.clients s.chans 0 [0]).map
          Kick.mptr,
          (State.strictChannel.addbanKicks .quiet 9 s.clients 0 0
            ((addbanOf []).typed (userBan [])) [] s.chans).map fun kick =>
              [kick.ban.reason, kick.reason],
          [some s.chans.channel.next, s.chans.findChannel "#a".toList,
            (s.chans.member.cell 0).map Chmember.chptr])) =
      some ([0], [["No Reason".toList, []]], [some 1, some 0, some 0]) := by
    decide +kernel
  obtain ⟨s, reached, seen⟩ := Except.exists_of_observed observed
  simp only [Prod.mk.injEq, List.cons.injEq, Option.some.injEq, and_true,
    Option.map_eq_some_iff] at seen
  obtain ⟨kicks, given, next, live, member, used, inside⟩ := seen
  obtain ⟨ch, there, -⟩ := Chans.exists_of_findChannel live
  have inv : Chans.Inv (fun _ => True) s.chans :=
    run_preserves (fun t => Chans.Inv (fun _ => True) t.chans)
      (fun _ event _ inv stepped => (State.step_inv
        (State.meetsLines_of_forall (fun _ _ _ _ => trivial) _ event)
        inv).of_ok stepped)
      Chans.Inv.empty reached
  have only : ∀ c ch, s.chans.channel.cell c = some ch → c = 0 := by
    intro c ch there
    have below := Heap.lt_next there
    omega
  have named : s.chans.Named := by
    refine ⟨inv.table, fun c d ch other first second _ => ?_⟩
    rw [only c ch first, only d other second]
  exact ⟨s, ch, member, reached, inv, named, there, live, used, inside, kicks,
    given⟩

/-- ChanServ joins, and the last user is kicked out: when he joined, and for a
ban with a reason. -/
theorem kicks_safely_strictChannel :
    ∃ s, run (State.step .quiet) (State.start [State.chanserv] 300)
        bannedAlone = .ok s ∧
      ((State.strictChannel.joinKicks .quiet 9 s.clients s.chans 0 [0]).map
        Kick.mptr = [0]) ∧
      State.strictChannel.KickedSafely 9 s 0
        (State.strictChannel.hChanservJoin .quiet 9 s.clients s.chans 0 [0])
        (State.strictChannel.joinKicks .quiet 9 s.clients s.chans 0 [0]) ∧
      State.strictChannel.KickedSafely 9 s 0
        (State.strictChannel.addbanActs .quiet 9 s.clients 0 0
          ((addbanOf "spam".toList).typed (userBan "spam".toList))
          (addbanOf "spam".toList).reason s.chans)
        (State.strictChannel.addbanKicks .quiet 9 s.clients 0 0
          ((addbanOf "spam".toList).typed (userBan "spam".toList))
          (addbanOf "spam".toList).reason s.chans) := by
  obtain ⟨s, ch, member, reached, inv, named, there, live, used, inside, kicks,
    -⟩ := bannedAlone_run
  obtain ⟨made, registered⟩ := newBan_addbanOf
  obtain ⟨joins, addban⟩ :=
    kicks_safely_iff State.strictChannel .quiet 9 inv named there
  have new := made "spam".toList (by simp)
  refine ⟨s, reached, kicks, (joins [0] ?_ (by decide)).1,
    (addban "#a".toList 0 live registered _ 200 _ _ _ new).2.mpr
      (.inl (by decide))⟩
  intro m listed
  obtain rfl := List.mem_singleton.mp listed
  exact ⟨member, used, inside⟩

/-- The ban has the reason `No Reason`, and the line has none. -/
theorem not_kickedSafely_noReason :
    ∃ s, run (State.step .quiet) (State.start [State.chanserv] 300)
        bannedAlone = .ok s ∧
      Regs.newBan (setDefaultConf "services.".toList) 9 200 "lyra".toList
        (addbanOf []) (State.strictChannel.regs.bansOf 0) =
          some (userBan []) ∧
      ¬State.strictChannel.KickedSafely 9 s 0
        (State.strictChannel.addbanActs .quiet 9 s.clients 0 0
          ((addbanOf []).typed (userBan [])) (addbanOf []).reason s.chans)
        (State.strictChannel.addbanKicks .quiet 9 s.clients 0 0
          ((addbanOf []).typed (userBan [])) (addbanOf []).reason
          s.chans) := by
  obtain ⟨s, ch, member, reached, inv, named, there, live, -, -, -, given⟩ :=
    bannedAlone_run
  obtain ⟨made, registered⟩ := newBan_addbanOf
  refine ⟨s, reached, made [] (by simp), fun safely => ?_⟩
  have same := safely.toKickedOut.safely_iff.mp safely
  obtain ⟨kick, listed, seen⟩ := List.mem_map.mp
    (given ▸ List.mem_singleton_self _)
  have equal := same kick listed
  simp only [List.cons.injEq, and_true] at seen
  rw [seen.1, seen.2] at equal
  revert equal
  decide

end ChanServ

end RatboxServices
