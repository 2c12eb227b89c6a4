import RatboxServices.Net.ChannelName
import RatboxServices.Net.ChannelPath
import RatboxServices.Net.ModeTrack

namespace RatboxServices

/-! The channels a service is in. Nothing but its own joins and parts changes
them, whatever the network sends. -/

def Channel.berth (service : ClientId) (ch : Channel) :
    Option (CString × Nat) :=
  if ch.services.count service = 0 then none
  else some (ch.name, ch.services.count service)

theorem Channel.berth_congr {service : ClientId} {before after : Channel}
    (name : after.name = before.name)
    (count : after.services.count service = before.services.count service) :
    after.berth service = before.berth service := by
  simp only [berth, name, count]

def ChanAct.Spares (service : ClientId) (act : ChanAct) : Prop :=
  act.validName = true ∧
    match act with
    | .join serviceP _ _ _ _ => serviceP ≠ service
    | .part serviceP _ => serviceP ≠ service
    | .takeover serviceP _ _ _ _ => serviceP ≠ service
    | _ => True

def ServiceAct.Spares (service : ClientId) : ServiceAct → Prop
  | .chan act => act.Spares service
  | _ => True

structure Env.Spares (env : Env) (service : ClientId) : Prop where
  channelJoin : ∀ s c joined,
    ∀ act ∈ env.hooks.channelJoin s c joined, act.Spares service
  modeOp : ∀ s c opped, ∀ act ∈ env.hooks.modeOp s c opped, act.Spares service
  modeVoice : ∀ s c voiced,
    ∀ act ∈ env.hooks.modeVoice s c voiced, act.Spares service
  modeSimple : ∀ s c, ∀ act ∈ env.hooks.modeSimple s c, act.Spares service
  modeBan : ∀ s c bans, ∀ act ∈ env.hooks.modeBan s c bans, act.Spares service
  channelTopic : ∀ s c, ∀ act ∈ env.hooks.channelTopic s c, act.Spares service
  runCommand : ∀ s serviceP user text args,
    ∀ act ∈ (env.runCommand s serviceP user text args).1, act.Spares service

namespace Chans

def station (service : ClientId) (s : Chans) (c : ChannelId) :
    Option (CString × Nat) :=
  (s.channel.cell c).bind (Channel.berth service)

/-- Channels go on being found under their names, and the service is where it
was. -/
def Moors (service : ClientId) (s t : Chans) : Prop :=
  Named s → Named t ∧ t.station service = s.station service

variable {service serviceP : ClientId} {s t : Chans} {c : ChannelId}
  {ch : Channel}

theorem station_of_cell (used : s.channel.cell c = some ch) :
    s.station service c = ch.berth service := by
  rw [station, used, Option.bind_some]

namespace Moors

theorem refl (s : Chans) : Moors service s s :=
  fun named => ⟨named, rfl⟩

theorem trans {r : Chans} (first : Moors service r s)
    (second : Moors service s t) : Moors service r t := by
  intro named
  obtain ⟨middle, before⟩ := first named
  obtain ⟨last, after⟩ := second middle
  exact ⟨last, after.trans before⟩

theorem of_names (same : SameNames s t)
    (kept : ∀ c ch after, s.channel.cell c = some ch →
      t.channel.cell c = some after →
        after.services.count service = ch.services.count service) :
    Moors service s t := by
  refine fun named => ⟨named.congr same, ?_⟩
  funext c
  cases used : t.channel.cell c with
  | none =>
      have gone := same.names c
      rw [used, Option.map_none] at gone
      rw [station, station, used, Option.map_eq_none_iff.mp gone.symm]
  | some after =>
      obtain ⟨ch, there, name⟩ := same.cell used
      rw [station_of_cell used, station_of_cell there]
      exact Channel.berth_congr name.symm (kept c ch after there used)

theorem of_modify {target : ChannelId} {change : Channel → Channel}
    (table : t.channelTable = s.channelTable)
    (channel : t.channel = s.channel.modify target change)
    (name : ∀ ch, (change ch).name = ch.name)
    (count : ∀ ch, (change ch).services.count service =
      ch.services.count service) : Moors service s t := by
  refine of_names (.of_modify table channel name) ?_
  intro c ch after there used
  rw [channel, Heap.modify_of_cell there, Option.some.injEq] at used
  subst used
  split
  · exact count ch
  · rfl

theorem modifyChannel (target : ChannelId) {change : Channel → Channel}
    (name : ∀ ch, (change ch).name = ch.name)
    (services : ∀ ch, (change ch).services = ch.services) :
    Moors service s (s.modifyChannel target change) :=
  of_modify rfl rfl name fun ch => congrArg (List.count service) (services ch)

theorem of_channel (table : t.channelTable = s.channelTable)
    (channel : t.channel = s.channel) : Moors service s t := by
  refine of_names ⟨table, fun c => by rw [channel]⟩ ?_
  intro c ch after there used
  rw [channel, there, Option.some.injEq] at used
  rw [used]

theorem createChannel {name : CString} {tsinfo : Int} {mode : Chmode}
    (absent : s.findChannel name = none) (fits : name.length ≤ channelLen) :
    Moors service s (s.createChannel name tsinfo mode).1 := by
  refine fun named => ⟨named.createChannel absent fits, ?_⟩
  funext c
  show ((s.channel.alloc _).cell c).bind _ = _
  rw [Heap.alloc_cell]
  split
  · rename_i same
    subst same
    rw [station, Heap.cell_next]
    rfl
  · rfl

theorem freeChannel (deserted : ∀ ch, s.channel.cell c = some ch →
    ch.services = []) : Moors service s (s.freeChannel c) := by
  refine fun named => ⟨named.freeChannel c, ?_⟩
  unfold Chans.freeChannel
  cases used : s.channel.cell c with
  | none => rfl
  | some gone =>
      funext d
      show ((s.channel.free c).cell d).bind _ = _
      rw [Heap.free_cell]
      split
      · rename_i same
        rw [same, station_of_cell used, Channel.berth, deserted gone used]
        rfl
      · rfl

theorem freeIfEmpty (target : ChannelId) :
    Moors service s (s.freeIfEmpty target) := by
  unfold Chans.freeIfEmpty
  split
  · exact refl s
  · rename_i ch used
    split
    · rename_i deserted
      rw [Bool.and_eq_true, List.isEmpty_iff, List.isEmpty_iff] at deserted
      refine freeChannel fun other there => ?_
      rw [used, Option.some.injEq] at there
      rw [← there, deserted.2]
    · exact refl s

theorem delChmember (mptr : MemberId) :
    Moors service s (s.delChmember mptr) := by
  cases found : s.member.cell mptr with
  | none =>
      simp only [Chans.delChmember, found]
      exact refl s
  | some member =>
      rw [Inv.delChmember_eq found]
      refine Moors.trans ?_ (freeIfEmpty _)
      refine of_modify rfl rfl (fun ch => ?_) fun ch => ?_
      · unfold Inv.delist
        split <;> rfl
      · unfold Inv.delist
        split <;> rfl

theorem addChmember (c : ChannelId) (u : ClientId) (flags : Word) :
    Moors service s (s.addChmember c u flags).1 := by
  rw [Inv.addChmember_eq]
  refine of_modify rfl rfl (fun ch => ?_) fun ch => ?_
  · unfold Inv.enlist
    split <;> rfl
  · unfold Inv.enlist
    split <;> rfl

theorem joinChannel {chname : CString} {newts : Int}
    (fits : chname.length ≤ channelLen) :
    Moors service s (State.joinChannel chname newts s).1 := by
  unfold State.joinChannel
  split
  · rename_i absent
    exact createChannel absent fits
  · dsimp only
    split
    · exact modifyChannel _ (fun _ => rfl) fun _ => rfl
    · exact refl s

theorem linkService (other : serviceP ≠ service) (chptr : ChannelId) :
    Moors service s (s.linkService serviceP chptr) :=
  of_modify rfl rfl (fun _ => rfl) fun _ => List.count_cons_of_ne other

theorem joinFound (other : serviceP ≠ service) {chname : CString}
    {tsinfo now : Int} {mode : Option Chmode} {override : Bool}
    {chptr : ChannelId} (found : s.findChannel chname = some chptr) :
    Moors service s
      (s.joinService serviceP chname tsinfo mode override now) := by
  unfold Chans.joinService
  rw [found]
  dsimp only
  split
  · exact refl s
  · split
    · exact refl s
    · refine Moors.trans ?_ (linkService other _)
      split
      · exact modifyChannel _ (fun _ => rfl) fun _ => rfl
      · exact refl s

theorem joinService (other : serviceP ≠ service) {chname : CString}
    {tsinfo now : Int} {mode : Option Chmode} {override : Bool}
    (fits : chname.length ≤ channelLen) :
    Moors service s
      (s.joinService serviceP chname tsinfo mode override now) := by
  cases found : s.findChannel chname with
  | some chptr => exact joinFound other found
  | none =>
      unfold Chans.joinService
      rw [found]
      exact (createChannel found fits).trans (linkService other _)

theorem partService (other : serviceP ≠ service) (chname : CString) :
    Moors service s (s.partService serviceP chname).1 := by
  unfold Chans.partService
  split
  · exact refl s
  · split
    · exact refl s
    · split
      · refine Moors.trans ?_ (freeIfEmpty _)
        exact of_modify rfl rfl (fun _ => rfl) fun _ =>
          List.count_erase_of_ne other.symm
      · exact refl s

theorem removeOurOvModes (chptr : ChannelId) :
    Moors service s (s.removeOurOvModes chptr) := by
  rw [Inv.removeOurOvModes_eq]
  exact of_modify rfl rfl (fun _ => rfl) fun _ => rfl

theorem removeOurSimpleModes (chptr : ChannelId) :
    Moors service s (s.removeOurSimpleModes chptr) :=
  modifyChannel chptr (fun _ => rfl) fun _ => rfl

theorem removeOurBans (chptr : ChannelId) (bans exceptions invex : Bool) :
    Moors service s (s.removeOurBans chptr bans exceptions invex) :=
  modifyChannel chptr (fun _ => rfl) fun _ => rfl

theorem rejoin (other : serviceP ≠ service) {tsinfo now : Int}
    {mode : Option Chmode} {override : Bool} (moors : Moors service s t)
    (used : t.channel.cell c = some ch) :
    Moors service s
      (t.joinService serviceP ch.name tsinfo mode override now) :=
  fun named =>
    moors.trans (joinFound other ((moors named).1.findChannel used)) named

theorem takeover (other : serviceP ≠ service) (chptr : ChannelId)
    (invite exceptions invex : Bool) (now : Int) :
    Moors service s
      (s.takeover serviceP chptr invite exceptions invex now) := by
  unfold Chans.takeover
  split
  · exact refl s
  · rename_i ch _
    split
    · exact refl s
    · have cleared : Moors service s
          ((((s.partService serviceP ch.name).1.removeOurSimpleModes
            chptr).removeOurOvModes chptr).removeOurBans chptr true
              exceptions invex) :=
        (((partService other ch.name).trans (removeOurSimpleModes chptr)).trans
          (removeOurOvModes chptr)).trans
            (removeOurBans chptr true exceptions invex)
      dsimp only
      split
      · exact cleared.trans (modifyChannel chptr (fun _ => rfl) fun _ => rfl)
      · rename_i later used
        refine rejoin other ?_ used
        exact cleared.trans (modifyChannel chptr (fun _ => rfl) fun _ => rfl)

theorem restatus {t : Chans} {mptr : MemberId} (step : Restatus s mptr t) :
    Moors service s t := by
  cases step with
  | same => exact refl s
  | other => exact of_modify rfl rfl (fun _ => rfl) fun _ => rfl

theorem exec (now : Int) {act : ChanAct}
    (spares : act.Spares service) : Moors service s (act.exec now s) := by
  obtain ⟨valid, spares⟩ := spares
  cases act with
  | op mptr => exact restatus (.op mptr)
  | deop mptr => exact restatus (.deop mptr)
  | voice mptr => exact of_channel rfl rfl
  | devoice mptr => exact of_channel rfl rfl
  | kick mptr => exact delChmember mptr
  | enforce chptr emode => exact modifyChannel _ (fun _ => rfl) fun _ => rfl
  | setTopic chptr topic topicwho tsinfo =>
      exact modifyChannel _ (fun _ => rfl) fun _ => rfl
  | addBan chptr mask => exact modifyChannel _ (fun _ => rfl) fun _ => rfl
  | delBan chptr mask => exact modifyChannel _ (fun _ => rfl) fun _ => rfl
  | removeModes chptr => exact removeOurSimpleModes chptr
  | removeOv chptr => exact removeOurOvModes chptr
  | removeBans chptr bans exceptions invex =>
      exact removeOurBans chptr bans exceptions invex
  | join serviceP chname tsinfo mode override =>
      exact joinService spares (Named.fits_of_validChname valid)
  | part serviceP chname => exact partService spares chname
  | takeover serviceP chptr invite exceptions invex =>
      exact takeover spares chptr invite exceptions invex now

theorem execAll (now : Int) {acts : List ChanAct}
    (spares : ∀ act ∈ acts, act.Spares service) :
    Moors service s (ChanAct.execAll now acts s) := by
  have meets : MeetsActs (fun _ act => act.Spares service) now s acts :=
    meetsActs_of_forall (fun act there _ => spares act there)
  exact execAll_related refl trans (fun _ _ => exec now) meets

theorem banMode {call : FullModeCall} {st : FullMode} (mask : CString) :
    Moors service st.chans (st.banMode call mask).chans := by
  unfold FullMode.banMode
  rw [FullMode.modebuildAdd_chans]
  split
  · split
    · exact refl _
    · exact of_modify rfl rfl (fun _ => rfl) fun _ => rfl
  · split
    · exact refl _
    · exact of_modify rfl rfl (fun _ => rfl) fun _ => rfl

theorem prefixMode {call : FullModeCall} {st : FullMode} (letter : Char)
    (nick : CString) :
    Moors service st.chans (st.prefixMode call letter nick).chans := by
  unfold FullMode.prefixMode
  split
  · unfold FullMode.serviceOp
    split
    · exact refl _
    · split
      · exact of_channel rfl rfl
      · split
        · exact refl _
        · exact of_channel rfl rfl
  · split
    · exact refl _
    · split
      · exact refl _
      · rename_i mptr found
        split
        · exact refl _
        · rename_i member used
          split
          · obtain same | same | ⟨_, same⟩ | ⟨_, same⟩ :=
              FullMode.memberOp_cases call st mptr member nick
            · rw [same]
              exact refl _
            · rw [same]
              exact of_channel rfl rfl
            · have unmarked : Moors service st.chans
                  (FullMode.unmarked mptr st.chans) := of_channel rfl rfl
              have opped := unmarked.trans (restatus (.op mptr))
              rw [same]
              exact opped.trans (of_channel rfl rfl)
            · have unlisted : Moors service st.chans
                  (FullMode.unlisted mptr st.chans) := of_channel rfl rfl
              rw [same]
              exact unlisted.trans (restatus (.deop mptr))
          · unfold FullMode.memberVoice
            split
            · split
              · exact refl _
              · rw [FullMode.modebuildAdd_chans]
                exact of_channel rfl rfl
            · split
              · rw [FullMode.modebuildAdd_chans]
                exact of_channel rfl rfl
              · rw [FullMode.modebuildAdd_chans]
                exact refl _

theorem parseFullMode (call : FullModeCall) (parv : List CString) :
    Moors service s (RatboxServices.parseFullMode call parv s).1 := by
  cases parv with
  | nil => exact refl s
  | cons modes args =>
      refine @FullMode.loop_related call ⟨s, args, true, []⟩ _ refl
        (fun first second => first.trans second) (fun st t effect => ?_) modes
      cases effect with
      | none => exact refl _
      | mode letter => exact of_modify rfl rfl (fun _ => rfl) fun _ => rfl
      | lists lists =>
          refine of_modify rfl rfl (fun ch => ?_) fun ch => ?_
          · obtain ⟨excepts, invites, same⟩ := lists ch
            rw [same]
          · obtain ⟨excepts, invites, same⟩ := lists ch
            rw [same]
      | ban mask => exact banMode mask
      | status letter nick =>
          show Moors service st.nextArg.chans _
          exact prefixMode letter nick

end Moors

theorem moors_closed : State.Closed (Moors service) where
  refl := Moors.refl
  trans := Moors.trans
  leave := fun mptr _ => Moors.delChmember mptr
  dress := fun _ _ _ dressing => Moors.modifyChannel _
    (fun ch => (dressing.plain ch).1) fun ch => (dressing.plain ch).2.2.2.2

end Chans

namespace State

open Chans (Moors Named)

variable {service : ClientId} {env : Env} {now : Int} {s : State}
  {clientP : ClientId} {parv : List CString} {r : Chans}

theorem callHook_moors {called : Bool} {acts : List ChanAct}
    (spares : ∀ act ∈ acts, act.Spares service) :
    Moors service s.chans (s.callHook now called acts).chans := by
  unfold callHook
  split
  · exact Moors.execAll now spares
  · exact Moors.refl _

theorem handleChmode_moors (spares : env.Spares service) {chptr : ChannelId}
    {sourceP : ClientId} :
    Moors service s.chans
      (s.handleChmode env now chptr sourceP parv).chans := by
  have parsing : Moors service s.chans (s.parsed chptr parv).chans :=
    Moors.parseFullMode _ parv
  have opping : Moors service _ (s.beforeVoice env now chptr parv).chans :=
    callHook_moors (spares.modeOp _ chptr _)
  have voicing : Moors service _ (s.beforeSimple env now chptr parv).chans :=
    callHook_moors (spares.modeVoice _ chptr _)
  have setting : Moors service _ (s.beforeBan env now chptr parv).chans :=
    callHook_moors (spares.modeSimple _ chptr)
  have banning : Moors service _ ((s.beforeBan env now chptr parv).tellBanned
      env now chptr sourceP).chans :=
    callHook_moors (spares.modeBan _ chptr _)
  rw [handleChmode_eq]
  exact ((((parsing.trans opping).trans voicing).trans setting).trans
    banning).trans (Moors.of_channel rfl rfl)

theorem cMode_moors (spares : env.Spares service) :
    Moved (Moors service) s (s.cMode env now clientP parv) := by
  unfold State.cMode
  split
  · exact Moors.refl _
  · refine Ensures.bind fun name _ => ?_
    split
    · exact Moors.refl _
    · split
      · split
        · exact Moors.refl _
        · split
          · exact Moors.refl _
          · exact Ensures.bind fun modes _ => Moors.refl _
      · split
        · exact Moors.refl _
        · split
          · exact Moors.refl _
          · exact handleChmode_moors spares

theorem cTmode_moors (spares : env.Spares service) :
    Moved (Moors service) s (s.cTmode env now clientP parv) := by
  unfold State.cTmode
  split
  · exact Moors.refl _
  · refine Ensures.bind fun chname _ => ?_
    split
    · exact Moors.refl _
    · refine Ensures.bind fun tsinfo _ => ?_
      split
      · exact Moors.refl _
      · exact handleChmode_moors spares

theorem setTopic_moors (spares : env.Spares service) {chptr : ChannelId}
    {change : Channel → Channel} (name : ∀ ch, (change ch).name = ch.name)
    (services : ∀ ch, (change ch).services = ch.services) :
    Moors service s.chans
      ((s.onChans (·.modifyChannel chptr change)).topicHook env now
        chptr).chans :=
  (Moors.modifyChannel chptr name services).trans
    (Moors.execAll now (spares.channelTopic _ chptr))

theorem cTopic_moors (spares : env.Spares service) :
    Moved (Moors service) s (s.cTopic env now clientP parv) := by
  unfold cTopic
  split
  · exact Moors.refl _
  · refine Ensures.bind fun chname _ => ?_
    split
    · exact Moors.refl _
    · refine Ensures.bind fun topic _ => ?_
      refine Ensures.bind fun client _ => ?_
      dsimp only
      split
      · exact setTopic_moors spares (fun _ => rfl) fun _ => rfl
      · exact setTopic_moors spares (fun _ => rfl) fun _ => rfl

theorem cTb_moors (spares : env.Spares service) :
    Moved (Moors service) s (s.cTb env now clientP parv) := by
  unfold cTb
  split
  · exact Moors.refl _
  · refine Ensures.bind fun chname _ => ?_
    split
    · exact Moors.refl _
    · refine Ensures.bind fun topicts _ => ?_
      dsimp only
      split
      · exact Moors.refl _
      · refine Ensures.bind fun client _ => ?_
        refine Ensures.bind fun text _ => ?_
        obtain ⟨topic, who⟩ := text
        dsimp only
        split
        · exact Moors.refl _
        · exact setTopic_moors spares (fun _ => rfl) fun _ => rfl

theorem lowertsHook_moors {chptr : ChannelId} {keepOld : Bool} :
    Moors service s.chans (s.lowertsHook env chptr keepOld).chans := by
  unfold lowertsHook
  split
  · exact Moors.refl _
  · split
    · exact Moors.refl _
    · exact Moors.modifyChannel _ (fun _ => rfl) fun _ => rfl

theorem settled_moors (target : JoinTarget) (removeBans : Bool)
    (fits : target.chname.length ≤ channelLen) :
    Moors service s.chans (target.settled s removeBans).chans := by
  have found : Moors service s.chans (target.found s).chans :=
    Moors.joinChannel fits
  refine found.trans ?_
  unfold JoinTarget.settled applyOldModes
  split
  · exact Moors.refl _
  · show Moors service _ (dropOldModes _ _ _ _)
    rw [dropOldModes_eq]
    exact Moors.of_modify rfl rfl (fun _ => rfl) fun _ => rfl

theorem sjoinCall_moors (spares : env.Spares service) (call : SjoinCall)
    (fits : call.target.chname.length ≤ channelLen) :
    Moors service s.chans (call.apply s env now).chans := by
  have merged : Moors service s.chans (call.merged s).chans := by
    refine (settled_moors call.target call.removeBans fits).trans ?_
    unfold SjoinCall.merged applyNewModes
    split
    · exact Moors.modifyChannel _ (fun _ => rfl) fun _ => rfl
    · exact Moors.refl _
  have lowered : Moors service s.chans (call.lowered s env).chans :=
    merged.trans lowertsHook_moors
  have walk : ∀ (tokens : List CString) (state : Chans × List MemberId),
      Moors service state.1 (tokens.foldl (sjoinNick
        (fun nick => (call.lowered s env).clients.findUser nick true)
        (call.target.chptr s) (call.target.keepNew s)) state).1 := by
    intro tokens
    induction tokens with
    | nil => exact fun state => Moors.refl _
    | cons token rest ih =>
        intro state
        refine Moors.trans ?_ (ih _)
        unfold sjoinNick
        dsimp only
        split
        · exact Moors.refl _
        · split
          · exact Moors.refl _
          · exact Moors.addChmember _ _ _
  have entered : Moors service s.chans (call.entered s env).1 :=
    lowered.trans (walk _ ((call.lowered s env).chans, []))
  rw [SjoinCall.apply_eq]
  split
  · exact lowered
  · split
    · rename_i free
      refine entered.trans (Moors.freeChannel fun ch used => ?_)
      rw [isFree, used, Bool.and_eq_true, List.isEmpty_iff,
        List.isEmpty_iff] at free
      exact free.2
    · exact entered.trans (Moors.execAll now (spares.channelJoin _ _ _))

theorem joinCall_moors (spares : env.Spares service) (target : JoinTarget)
    (fits : target.chname.length ≤ channelLen) :
    Moors service s.chans (target.apply s env now clientP).chans := by
  have lowered : Moors service s.chans (target.lowered s env).chans :=
    (settled_moors target false fits).trans lowertsHook_moors
  have entered : Moors service s.chans (target.entered s env clientP).1 := by
    unfold JoinTarget.entered
    split
    · exact lowered
    · exact lowered.trans (Moors.addChmember _ _ _)
  rw [JoinTarget.apply_eq]
  exact entered.trans (Moors.execAll now (spares.channelJoin _ _ _))

theorem cSjoin_moors (spares : env.Spares service) :
    Moved (Moors service) s (s.cSjoin env now clientP parv) := by
  have named : sjoinHeard parv = true →
      (joinTarget parv).chname.length ≤ channelLen := by
    intro heard
    rw [sjoinHeard, Bool.and_eq_true] at heard
    exact Named.fits_of_validChname heard.2
  cases read : s.sjoinCall clientP parv with
  | some call =>
      rw [cSjoin_of_call read]
      refine sjoinCall_moors spares call ?_
      rw [sjoinCall_target read]
      apply named
      by_contra unheard
      simp [sjoinCall, unheard] at read
  | none =>
      refine Outcome.imp (cSjoin_of_none read) ?_
      rintro t (⟨_, rfl⟩ | ⟨heard, rfl⟩)
      · exact Moors.refl _
      · exact Moors.joinChannel (named heard)

theorem cJoin_moors (spares : env.Spares service) :
    Moved (Moors service) s (s.cJoin env now clientP parv) := by
  have named : s.joinHeard clientP parv = true →
      (joinTarget parv).chname.length ≤ channelLen := by
    intro heard
    rw [joinHeard, Bool.and_eq_true] at heard
    exact Named.fits_of_validChname heard.2
  refine Outcome.imp cJoin_cases ?_
  rintro t (⟨_, rfl | rfl⟩ | ⟨heard, rfl⟩ | ⟨target, read, rfl⟩)
  · exact Moors.refl _
  · exact foldl_leave (P := fun chans => Moors service s.chans chans)
      (fun mptr _ before => before.trans (Moors.delChmember mptr)) _
      (Moors.refl _)
  · exact Moors.joinChannel (named heard)
  · refine joinCall_moors spares target ?_
    rw [joinCall_target read]
    apply named
    by_contra unheard
    simp [joinCall, unheard] at read

theorem serviceFits_moors {act : ServiceAct} (spares : act.Spares service) :
    ServiceFits (Moors service) now s act := by
  cases act with
  | chan act => exact Moors.exec now spares
  | issueMode serviceP chptr allowSslonly parv =>
      exact Moors.parseFullMode _ parv
  | exit name => exact trivial

theorem callFits_moors (spares : env.Spares service) (command : Command) :
    CallFits env (Moors service) now clientP parv s command := by
  have commands : ∀ command, CommandFits env (Moors service) now clientP parv
      s command := by
    intro command serviceP text args _ user service t _
    exact meets_of_mem (fun act there _ =>
      serviceFits_moors (spares.runCommand _ _ _ _ _ act there)) _
  cases command with
  | sjoin => exact cSjoin_moors spares
  | join => exact cJoin_moors spares
  | mode => exact cMode_moors spares
  | tmode => exact cTmode_moors spares
  | topic => exact cTopic_moors spares
  | tb => exact cTb_moors spares
  | privmsg => exact commands _
  | encap => exact commands _
  | _ => exact trivial

def EventSpares (service : ClientId) : Event → Prop
  | .service _ act => act.Spares service
  | _ => True

theorem step_moors (spares : env.Spares service) {event : Event}
    (foreign : EventSpares service event) :
    Ensures (fun t => Moors service s.chans t.chans) (s.step env event) := by
  refine step_moved Chans.moors_closed ⟨?_, ?_⟩
  · cases event with
    | service now act => exact serviceFits_moors foreign
    | _ => exact trivial
  · exact meetsLines_of_forall (fun _ _ _ _ _ _ => callFits_moors spares _) _ _

def EventNames : Event → Prop
  | .service _ (.chan act) => act.validName = true
  | _ => True

theorem step_named (spares : env.Spares service) {event : Event}
    (valid : EventNames event) (named : s.chans.Named) :
    Ensures (fun t => t.chans.Named) (s.step env event) := by
  have foreign (spared : EventSpares service event) :
      Ensures (fun t => t.chans.Named) (s.step env event) :=
    (step_moors spares spared).imp fun t moors => (moors named).1
  cases event with
  | service now act =>
      cases act with
      | chan act => exact named.exec now valid
      | _ => exact foreign trivial
  | _ => exact foreign trivial

/-- Between its own joins and parts the service is in the same channels, as
often and under the same names, whatever the network and the others do. -/
theorem station_of_run {blocks : List ServiceBlock} {pingTime : Int}
    {events later : List Event} {t : State} (spares : env.Spares service)
    (valid : ∀ event ∈ events, EventNames event)
    (foreign : ∀ event ∈ later, EventSpares service event)
    (reached : run (step env) (start blocks pingTime) events = .ok s)
    (further : run (step env) s later = .ok t) :
    t.chans.station service = s.chans.station service := by
  have named : s.chans.Named :=
    run_preserves_of_meets (fun t : State => t.chans.Named)
      (fun _ _ _ valid named stepped =>
        (step_named spares valid named).of_ok stepped)
      (meets_of_mem (fun event listed _ => valid event listed) _)
      Chans.Named.empty reached
  have moors : Moors service s.chans t.chans :=
    run_preserves_of_meets (fun u => Moors service s.chans u.chans)
      (fun _ _ _ foreign before stepped =>
        before.trans ((step_moors spares foreign).of_ok stepped))
      (meets_of_mem (fun event listed _ => foreign event listed) _)
      (Moors.refl _) further
  exact (moors named).2

theorem quiet_spares (service : ClientId) : Env.quiet.Spares service where
  channelJoin := fun _ _ _ _ listed => nomatch listed
  modeOp := fun _ _ _ _ listed => nomatch listed
  modeVoice := fun _ _ _ _ listed => nomatch listed
  modeSimple := fun _ _ _ listed => nomatch listed
  modeBan := fun _ _ _ _ listed => nomatch listed
  channelTopic := fun _ _ _ listed => nomatch listed
  runCommand := fun _ _ _ _ _ _ listed => nomatch listed

def moored : List Event :=
  linkUp
    [⟨":0AB UID one 1 5 +i u h 0 0ABAAAAAA :g".toList, false⟩,
      ⟨":0AB SJOIN 100 #a +nt :@0ABAAAAAA".toList, false⟩] ++
    [.service 2 (.chan (.join 0 "#A".toList 0 none false))]

def adrift : List Event :=
  [.service 3 (.chan (.join 1 "#a".toList 0 none false)),
    .read 4 false .again
      [⟨":0AB SJOIN 50 #a +s :0ABAAAAAA".toList, false⟩,
        ⟨":0AB KICK #a 0ABAAAAAA :x".toList, false⟩],
    .service 5 (.chan (.part 1 "#a".toList)), .writeError]

/-- The service is still in the channel, and nobody else is. -/
theorem station_of_adrift :
    ∃ s t, run (step .quiet) (start
        [{ name := "CHANSERV".toList, uid := "1SVAAAAAA".toList },
          { name := "ALIS".toList, uid := "1SVAAAAAB".toList }] 300) moored =
        .ok s ∧
      run (step .quiet) s adrift = .ok t ∧
      s.chans.station 0 0 = some ("#a".toList, 1) ∧
      t.chans.station 0 = s.chans.station 0 ∧
      (t.chans.channel.cell 0).map Channel.users = some [] := by
  have observed : ((run (step .quiet) (start
      [{ name := "CHANSERV".toList, uid := "1SVAAAAAA".toList },
        { name := "ALIS".toList, uid := "1SVAAAAAB".toList }] 300)
      moored).bind fun s => (run (step .quiet) s adrift).map fun t =>
        (s, t)).toOption.map (fun found =>
          (found.1.chans.station 0 0,
            (found.2.chans.channel.cell 0).map Channel.users)) =
      some (some ("#a".toList, 1), some []) := by
    decide +kernel
  obtain ⟨⟨s, t⟩, found, seen⟩ := Except.exists_of_observed observed
  obtain ⟨s', reached, rest⟩ := Except.bind_eq_ok.mp found
  cases ended : run (step .quiet) s' adrift with
  | error stop =>
      rw [ended] at rest
      cases rest
  | ok last =>
      rw [ended] at rest
      cases rest
      rw [Prod.mk.injEq] at seen
      refine ⟨s, t, reached, ended, seen.1, ?_, seen.2⟩
      have upper : Chans.validChname ['#', 'A'] = true := by decide
      have lower : Chans.validChname ['#', 'a'] = true := by decide
      refine station_of_run (quiet_spares 0) ?_ ?_ reached ended
      · simp [moored, linkUp, EventNames, ChanAct.validName, upper]
      · simp [adrift, EventSpares, ServiceAct.Spares, ChanAct.Spares,
          ChanAct.validName, lower]

end State

end RatboxServices
