import RatboxServices.Net.ChannelEvolve
import RatboxServices.Net.ChannelRun
import RatboxServices.Net.ModeTrack

namespace RatboxServices

open Chans (Inv SameLists ListsEmpty ListsTell)

/-! The static lists of `c_mode.c` along every run of the daemon. Only
`parse_full_mode` fills them and only `handle_chmode` empties them. -/

namespace Chans

namespace SameLists

variable {s : Chans}

theorem freeIfEmpty (target : ChannelId) :
    SameLists s (s.freeIfEmpty target) := by
  unfold Chans.freeIfEmpty Chans.freeChannel
  split
  · exact .refl s
  · split
    · split
      · exact .refl s
      · exact ⟨rfl, rfl, rfl⟩
    · exact .refl s

theorem addChmember (chptr : ChannelId) (targetP : ClientId) (flags : Word) :
    SameLists s (s.addChmember chptr targetP flags).1 := by
  rw [Inv.addChmember_eq]
  exact ⟨rfl, rfl, rfl⟩

theorem delChmember (mptr : MemberId) : SameLists s (s.delChmember mptr) := by
  unfold Chans.delChmember
  split
  · exact .refl s
  · rename_i member used
    exact ⟨(freeIfEmpty member.chptr).opped, (freeIfEmpty member.chptr).voiced,
      (freeIfEmpty member.chptr).ban⟩

theorem removeOurOvModes (chptr : ChannelId) :
    SameLists s (s.removeOurOvModes chptr) := by
  rw [Inv.removeOurOvModes_eq]
  exact ⟨rfl, rfl, rfl⟩

theorem partService (serviceP : ClientId) (chname : CString) :
    SameLists s (s.partService serviceP chname).1 := by
  unfold Chans.partService
  split
  · exact .refl s
  · split
    · exact .refl s
    · split
      · refine SameLists.trans ?_ (freeIfEmpty _)
        exact ⟨rfl, rfl, rfl⟩
      · exact .refl s

theorem joinService (serviceP : ClientId) (chname : CString) (tsinfo : Int)
    (mode : Option Chmode) (override : Bool) (now : Int) :
    SameLists s (s.joinService serviceP chname tsinfo mode override now) := by
  unfold Chans.joinService
  split
  · exact ⟨rfl, rfl, rfl⟩
  · split
    · exact .refl s
    · split
      · exact .refl s
      · dsimp only
        split
        · exact ⟨rfl, rfl, rfl⟩
        · exact ⟨rfl, rfl, rfl⟩

theorem takeover (serviceP : ClientId) (chptr : ChannelId)
    (invite exceptions invex : Bool) (now : Int) :
    SameLists s (s.takeover serviceP chptr invite exceptions invex now) := by
  unfold Chans.takeover
  split
  · exact .refl s
  · rename_i ch used
    split
    · exact .refl s
    · have cleared : SameLists (s.partService serviceP ch.name).1
          ((s.partService serviceP ch.name).1.removeOurSimpleModes chptr) :=
        ⟨rfl, rfl, rfl⟩
      have stripped := ((partService serviceP ch.name).trans cleared).trans
        (removeOurOvModes chptr)
      dsimp only
      split
      · exact stripped.trans ⟨rfl, rfl, rfl⟩
      · exact stripped.trans ⟨(joinService _ _ _ _ _ _).opped,
          (joinService _ _ _ _ _ _).voiced, (joinService _ _ _ _ _ _).ban⟩

theorem exec (now : Int) (act : ChanAct) : SameLists s (act.exec now s) := by
  cases act with
  | op mptr => exact (Chans.Restatus.op mptr).lists
  | deop mptr => exact (Chans.Restatus.deop mptr).lists
  | voice mptr => exact ⟨rfl, rfl, rfl⟩
  | devoice mptr => exact ⟨rfl, rfl, rfl⟩
  | kick mptr => exact delChmember mptr
  | enforce chptr emode => exact ⟨rfl, rfl, rfl⟩
  | setTopic chptr topic topicwho tsinfo => exact ⟨rfl, rfl, rfl⟩
  | addBan chptr mask => exact ⟨rfl, rfl, rfl⟩
  | delBan chptr mask => exact ⟨rfl, rfl, rfl⟩
  | removeModes chptr => exact ⟨rfl, rfl, rfl⟩
  | removeOv chptr => exact removeOurOvModes chptr
  | removeBans chptr bans exceptions invex => exact ⟨rfl, rfl, rfl⟩
  | join serviceP chname tsinfo mode override =>
      exact joinService serviceP chname tsinfo mode override now
  | part serviceP chname => exact partService serviceP chname
  | takeover serviceP chptr invite exceptions invex =>
      exact takeover serviceP chptr invite exceptions invex now

theorem execAll (now : Int) (acts : List ChanAct) :
    SameLists s (ChanAct.execAll now acts s) := by
  unfold ChanAct.execAll
  induction acts generalizing s with
  | nil => exact .refl s
  | cons act rest ih => exact (exec now act).trans ih

end SameLists

theorem ListsEmpty.of_same {s t : Chans} (same : SameLists s t)
    (empty : ListsEmpty s) : ListsEmpty t :=
  ⟨same.opped.trans empty.opped, same.voiced.trans empty.voiced,
    same.ban.trans empty.ban⟩

def KeepsEmpty (s t : Chans) : Prop :=
  Inv (fun _ => True) s →
    Inv (fun _ => True) t ∧ (ListsEmpty s → ListsEmpty t)

theorem KeepsEmpty.of_same {s t : Chans}
    (inv : Inv (fun _ => True) s → Inv (fun _ => True) t)
    (same : SameLists s t) : KeepsEmpty s t :=
  fun ordered => ⟨inv ordered, ListsEmpty.of_same same⟩

end Chans

namespace State

open Chans (KeepsEmpty)

variable {env : Env} {now : Int} {s : State}
  {clientP : ClientId} {parv : List CString}

theorem keepsEmpty_closed : Closed KeepsEmpty where
  refl := fun _ ordered => ⟨ordered, id⟩
  trans := by
    intro r s t first second ordered
    obtain ⟨middle, left⟩ := first ordered
    obtain ⟨last, right⟩ := second middle
    exact ⟨last, fun empty => right (left empty)⟩
  leave := fun mptr _ =>
    .of_same (fun inv => inv.delChmember mptr) (.delChmember mptr)
  dress := fun chptr _ _ dressing =>
    .of_same (fun inv => inv.modifyChannel chptr dressing.plain)
      ⟨rfl, rfl, rfl⟩

theorem found_lists (target : JoinTarget) (s : State) :
    SameLists s.chans (target.found s).chans := by
  unfold JoinTarget.found joinChannel
  dsimp only
  split
  · exact ⟨rfl, rfl, rfl⟩
  · split
    · exact ⟨rfl, rfl, rfl⟩
    · exact .refl _

theorem settled_lists (target : JoinTarget) (s : State) (removeBans : Bool) :
    SameLists s.chans (target.settled s removeBans).chans := by
  refine (found_lists target s).trans ?_
  unfold JoinTarget.settled applyOldModes
  split
  · exact .refl _
  · rw [onChans_chans, dropOldModes_eq]
    exact ⟨rfl, rfl, rfl⟩

theorem lowertsHook_lists (chptr : ChannelId) (keepOld : Bool) :
    SameLists s.chans (s.lowertsHook env chptr keepOld).chans := by
  unfold lowertsHook
  split
  · exact .refl _
  · split
    · exact .refl _
    · exact ⟨rfl, rfl, rfl⟩

theorem sjoinNick_lists (findUser : CString → Option ClientId)
    (chptr : ChannelId) (keepNew : Bool) (state : Chans × List MemberId)
    (token : CString) :
    SameLists state.1 (sjoinNick findUser chptr keepNew state token).1 := by
  unfold sjoinNick
  obtain ⟨opped, voiced, nick⟩ := nickPrefix token
  dsimp only
  split
  · exact .refl _
  · split
    · exact .refl _
    · exact .addChmember _ _ _

theorem entered_lists (call : SjoinCall) (s : State) :
    SameLists (call.lowered s env).chans (call.entered s env).1 := by
  unfold SjoinCall.entered
  generalize nickTokens _ _ = tokens
  have walk : ∀ state : Chans × List MemberId, SameLists state.1
      (tokens.foldl (sjoinNick
        (fun nick => (call.lowered s env).clients.findUser nick true)
        (call.target.chptr s) (call.target.keepNew s)) state).1 := by
    induction tokens with
    | nil => exact fun state => .refl _
    | cons token rest ih =>
        exact fun state => (sjoinNick_lists _ _ _ state token).trans (ih _)
  exact walk ((call.lowered s env).chans, [])

theorem sjoin_lists (call : SjoinCall) :
    SameLists s.chans (call.apply s env now).chans := by
  have merged : SameLists s.chans (call.merged s).chans := by
    refine (settled_lists call.target s call.removeBans).trans ?_
    unfold SjoinCall.merged applyNewModes
    split
    · exact ⟨rfl, rfl, rfl⟩
    · exact .refl _
  have lowered : SameLists s.chans (call.lowered s env).chans :=
    merged.trans (lowertsHook_lists _ _)
  have entered : SameLists s.chans (call.entered s env).1 :=
    lowered.trans (entered_lists call s)
  rw [SjoinCall.apply_eq]
  split
  · exact lowered
  · split
    · refine entered.trans ?_
      unfold Chans.freeChannel
      split
      · exact .refl _
      · exact ⟨rfl, rfl, rfl⟩
    · exact entered.trans (.execAll _ _)

theorem join_lists (target : JoinTarget) (clientP : ClientId) :
    SameLists s.chans (target.apply s env now clientP).chans := by
  have lowered : SameLists s.chans (target.lowered s env).chans :=
    (settled_lists target s false).trans (lowertsHook_lists _ _)
  have entered : SameLists s.chans (target.entered s env clientP).1 := by
    unfold JoinTarget.entered
    split
    · exact lowered
    · exact lowered.trans (.addChmember _ _ _)
  rw [JoinTarget.apply_eq]
  exact entered.trans (.execAll _ _)

theorem cSjoin_lists :
    Ensures (fun t => SameLists s.chans t.chans)
      (s.cSjoin env now clientP parv) := by
  cases read : s.sjoinCall clientP parv with
  | some call =>
      rw [cSjoin_of_call read]
      exact sjoin_lists call
  | none =>
      refine Outcome.imp (cSjoin_of_none read) ?_
      rintro t (⟨_, rfl⟩ | ⟨_, rfl⟩)
      · exact .refl _
      · exact found_lists _ s

theorem cJoin_lists :
    Ensures (fun t => SameLists s.chans t.chans)
      (s.cJoin env now clientP parv) := by
  refine Outcome.imp cJoin_cases ?_
  rintro t (⟨_, rfl | rfl⟩ | ⟨_, rfl⟩ | ⟨target, _, rfl⟩)
  · exact .refl _
  · exact foldl_leave (P := fun chans => SameLists s.chans chans)
      (fun mptr _ before => before.trans (.delChmember mptr)) _ (.refl _)
  · exact found_lists _ s
  · exact join_lists target clientP

theorem setTopic_lists (chptr : ChannelId) (change : Channel → Channel) :
    SameLists s.chans ((s.onChans (·.modifyChannel chptr change)).topicHook env
      now chptr).chans := by
  have hooked : SameLists (s.chans.modifyChannel chptr change)
      (ChanAct.execAll now (env.hooks.channelTopic
        (s.onChans (·.modifyChannel chptr change)) chptr)
        (s.chans.modifyChannel chptr change)) := .execAll _ _
  exact ⟨hooked.opped, hooked.voiced, hooked.ban⟩

theorem cTopic_lists :
    Ensures (fun t => SameLists s.chans t.chans)
      (s.cTopic env now clientP parv) := by
  unfold cTopic
  split
  · exact SameLists.refl _
  · refine Ensures.bind fun chname _ => ?_
    split
    · exact SameLists.refl _
    · refine Ensures.bind fun topic _ => ?_
      refine Ensures.bind fun client _ => ?_
      dsimp only
      split
      · exact setTopic_lists _ _
      · exact setTopic_lists _ _

theorem cTb_lists :
    Ensures (fun t => SameLists s.chans t.chans)
      (s.cTb env now clientP parv) := by
  unfold cTb
  split
  · exact SameLists.refl _
  · refine Ensures.bind fun chname _ => ?_
    split
    · exact SameLists.refl _
    · refine Ensures.bind fun topicts _ => ?_
      dsimp only
      split
      · exact SameLists.refl _
      · refine Ensures.bind fun client _ => ?_
        refine Ensures.bind fun text _ => ?_
        obtain ⟨topic, who⟩ := text
        dsimp only
        split
        · exact SameLists.refl _
        · exact setTopic_lists _ _

theorem keepsEmpty_of_moves {outcome : Except Stop State}
    (moves : Ensures (Moves (Inv fun _ => True) (Inv fun _ => True) s) outcome)
    (lists : Ensures (fun t => SameLists s.chans t.chans) outcome) :
    Moved KeepsEmpty s outcome := by
  refine Ensures.intro fun t returned => ?_
  obtain ⟨chans, rfl, kept⟩ := moves.of_ok returned
  exact .of_same kept (lists.of_ok returned)

theorem handleChmode_keepsEmpty (chptr sourceP : ClientId)
    (parv : List CString) :
    KeepsEmpty s.chans (s.handleChmode env now chptr sourceP parv).chans := by
  intro ordered
  have moves : Moves (Inv fun _ => True) (Inv fun _ => True) s
      (s.handleChmode env now chptr sourceP parv) := handleChmode_moves
  obtain ⟨chans, same, kept⟩ := moves
  refine ⟨?_, fun _ => ⟨rfl, rfl, rfl⟩⟩
  rw [same]
  exact kept ordered

theorem cMode_keepsEmpty :
    Moved KeepsEmpty s (s.cMode env now clientP parv) := by
  have same : KeepsEmpty s.chans s.chans := keepsEmpty_closed.refl _
  unfold cMode
  split
  · exact same
  · refine Ensures.bind fun name _ => ?_
    split
    · exact same
    · split
      · split
        · exact same
        · split
          · exact same
          · exact Ensures.bind fun modes _ => same
      · split
        · exact same
        · split
          · exact same
          · exact handleChmode_keepsEmpty _ _ _

theorem cTmode_keepsEmpty :
    Moved KeepsEmpty s (s.cTmode env now clientP parv) := by
  have same : KeepsEmpty s.chans s.chans := keepsEmpty_closed.refl _
  unfold cTmode
  split
  · exact same
  · refine Ensures.bind fun chname _ => ?_
    split
    · exact same
    · refine Ensures.bind fun tsinfo _ => ?_
      split
      · exact same
      · exact handleChmode_keepsEmpty _ _ _

/-- Nobody that the mode string leaves opped, voiced or banned was not so at
some point of it. -/
structure Unremarkable (c : ChannelId) (states : List Chans) (s : Chans) :
    Prop where
  opped : ∀ m, s.Opped c m → ∀ u ∈ states, u.Opped c m
  voiced : ∀ m, s.Voiced c m → ∀ u ∈ states, u.Voiced c m
  banned : ∀ mask, s.Banned c mask → ∀ u ∈ states, u.Banned c mask

/-- A service that issues a mode string does it on a channel that is there, and
ops, voices and bans nobody by it. -/
def IssuesQuietly (s : State) : ServiceAct → Prop
  | .issueMode serviceP chptr allowSslonly parv =>
      (s.chans.channel.cell chptr).isSome = true ∧
        Unremarkable chptr
          (messageStates (s.issuedCall serviceP chptr allowSslonly) parv s.chans)
          (parseFullMode (s.issuedCall serviceP chptr allowSslonly) parv
            s.chans).1
  | _ => True

def EventActQuiet (s : State) : Event → Prop
  | .service _ act => IssuesQuietly s act
  | _ => True

/-- No service ops, voices or bans anybody by a mode string while the event is
handled. -/
structure Unissued (env : Env) (s : State) (event : Event) : Prop where
  act : EventActQuiet s event
  lines : MeetsLines env (fun s line => ∀ command clientP parv,
    lineCall env s line.text = some (command, clientP, parv) →
    CommandMeets IssuesQuietly env event.now clientP parv s command) s event

theorem listsEmpty_of_unremarkable {c : ChannelId} {states : List Chans}
    {chans : Chans} (tell : ListsTell c states chans)
    (quiet : Unremarkable c states chans) : ListsEmpty chans where
  opped := by
    refine List.eq_nil_iff_forall_not_mem.mpr fun m listed => ?_
    obtain ⟨opped, u, passed, lacked⟩ := (tell.opped.mem_iff m).mp listed
    exact lacked (quiet.opped m opped u passed)
  voiced := by
    refine List.eq_nil_iff_forall_not_mem.mpr fun m listed => ?_
    obtain ⟨voiced, u, passed, lacked⟩ := (tell.voiced.mem_iff m).mp listed
    exact lacked (quiet.voiced m voiced u passed)
  ban := by
    refine List.eq_nil_iff_forall_not_mem.mpr fun mask listed => ?_
    obtain ⟨banned, u, passed, lacked⟩ := (tell.ban.mem_iff mask).mp listed
    exact lacked (quiet.banned mask banned u passed)

theorem serviceFits_of_quiet {act : ServiceAct} (quiet : IssuesQuietly s act) :
    ServiceFits KeepsEmpty now s act := by
  cases act with
  | chan act => exact .of_same (fun inv => inv.exec now act) (.exec now act)
  | issueMode serviceP chptr allowSslonly parv =>
      intro ordered
      refine ⟨ordered.parseFullMode _ _, fun empty => ?_⟩
      exact listsEmpty_of_unremarkable
        (parseFullMode_lists ordered quiet.1 empty) quiet.2
  | exit name => exact trivial

theorem callFits_of_quiet {command : Command}
    (quiet : CommandMeets IssuesQuietly env now clientP parv s command) :
    CallFits env KeepsEmpty now clientP parv s command := by
  have commands : CommandFits env KeepsEmpty now clientP parv s command :=
    quiet.mono fun _ _ quiet => serviceFits_of_quiet quiet
  cases command with
  | sjoin =>
      exact keepsEmpty_of_moves (cSjoin_moves fun _ _ => trivial) cSjoin_lists
  | join =>
      exact keepsEmpty_of_moves (cJoin_moves fun _ _ => trivial) cJoin_lists
  | mode => exact cMode_keepsEmpty
  | tmode => exact cTmode_keepsEmpty
  | topic => exact keepsEmpty_of_moves cTopic_moves cTopic_lists
  | tb => exact keepsEmpty_of_moves cTb_moves cTb_lists
  | privmsg => exact commands
  | encap => exact commands
  | _ => exact trivial

theorem eventFits_of_unissued {event : Event}
    (unissued : Unissued env s event) : EventFits env KeepsEmpty s event where
  act := by
    have act := unissued.act
    cases event with
    | service now given => exact serviceFits_of_quiet act
    | _ => exact trivial
  lines := unissued.lines.mono fun _ _ quiet command clientP parv called =>
    callFits_of_quiet (quiet command clientP parv called)

/-- What `handle_chmode` passes to its hooks: the members that the message
opped and voiced and the masks that it banned, as the message left them. -/
structure HooksTell (env : Env) (now : Int) (chptr : ChannelId)
    (parv : List CString) (s : State) : Prop where
  op : Exactly (s.parsed chptr parv).chans.oppedList fun m =>
    (s.parsed chptr parv).chans.Opped chptr m ∧
      ∃ u ∈ messageStates (s.receivedCall chptr) parv s.chans,
        ¬u.Opped chptr m
  voice : Exactly (s.beforeVoice env now chptr parv).chans.voicedList fun m =>
    (s.parsed chptr parv).chans.Voiced chptr m ∧
      ∃ u ∈ messageStates (s.receivedCall chptr) parv s.chans,
        ¬u.Voiced chptr m
  ban : Exactly (s.beforeBan env now chptr parv).chans.banList fun mask =>
    (s.parsed chptr parv).chans.Banned chptr mask ∧
      ∃ u ∈ messageStates (s.receivedCall chptr) parv s.chans,
        ¬u.Banned chptr mask

theorem callHook_lists (called : Bool) (acts : List ChanAct) :
    SameLists s.chans (s.callHook now called acts).chans := by
  unfold callHook
  split
  · exact .execAll now acts
  · exact .refl _

theorem hooksTell_of_empty {chptr : ChannelId}
    (ordered : Inv (fun _ => True) s.chans) (empty : ListsEmpty s.chans)
    (there : (s.chans.channel.cell chptr).isSome = true) :
    HooksTell env now chptr parv s := by
  have tell : ListsTell (s.receivedCall chptr).chptr
      (messageStates (s.receivedCall chptr) parv s.chans)
      (parseFullMode (s.receivedCall chptr) parv s.chans).1 :=
    parseFullMode_lists ordered there empty
  have voice : SameLists (s.parsed chptr parv).chans
      (s.beforeVoice env now chptr parv).chans := callHook_lists _ _
  have simple : SameLists (s.beforeVoice env now chptr parv).chans
      (s.beforeSimple env now chptr parv).chans := callHook_lists _ _
  have ban : SameLists (s.beforeSimple env now chptr parv).chans
      (s.beforeBan env now chptr parv).chans := callHook_lists _ _
  refine ⟨tell.opped, ?_, ?_⟩
  · rw [voice.voiced]
    exact tell.voiced
  · rw [((voice.trans simple).trans ban).ban]
    exact tell.ban

/-- In every run in which no service ops, voices or bans anybody by a mode
string, the static lists hold nothing between two messages, and every call of
`handle_chmode` passes exactly what its message did to its hooks. -/
theorem hooksTell_of_run {blocks : List ServiceBlock} {pingTime : Int}
    {earlier : List Event} {event : Event} {middle u : State}
    (unissued : Meets (step env) (Unissued env) (start blocks pingTime)
      (earlier ++ [event]))
    (between : run (step env) (start blocks pingTime) earlier = .ok middle)
    (moment : Moment env middle event u) :
    ListsEmpty u.chans ∧ ∀ clock chptr sourceP parv,
      (u.chans.channel.cell chptr).isSome = true →
      HooksTell env clock chptr parv u ∧
        ListsEmpty (u.handleChmode env clock chptr sourceP parv).chans := by
  have first : KeepsEmpty (start blocks pingTime).chans middle.chans :=
    run_moved keepsEmpty_closed
      (unissued.left.mono fun _ _ unissued => eventFits_of_unissued unissued)
      between
  have second : KeepsEmpty middle.chans u.chans :=
    moved_moment keepsEmpty_closed
      (eventFits_of_unissued (unissued.after between).1) moment
  obtain ⟨ordered, kept⟩ := keepsEmpty_closed.trans first second Inv.empty
  have empty : ListsEmpty u.chans := kept ⟨rfl, rfl, rfl⟩
  refine ⟨empty, fun clock chptr sourceP parv there => ?_⟩
  refine ⟨hooksTell_of_empty ordered empty there, ?_⟩
  exact (handleChmode_keepsEmpty chptr sourceP parv ordered).2 empty

def twoChannels : List Incoming :=
  [⟨":0AB UID one 1 5 +i u h 0 0ABAAAAAA :g".toList, false⟩,
    ⟨":0AB SJOIN 5 #a +nt :0ABAAAAAA".toList, false⟩,
    ⟨":0AB SJOIN 5 #b +nt :0ABAAAAAA".toList, false⟩]

def voicedOnce : List Event :=
  linkUp (twoChannels ++ [⟨":0AB TMODE 5 #b +v 0ABAAAAAA".toList, false⟩])

theorem quiet_unissued {event : Event} (received : event.isService = false) :
    Unissued .quiet s event where
  act := by
    cases event with
    | service now act => cases received
    | _ => exact trivial
  lines := by
    have always : ∀ (u : State) (line : Incoming), ∀ command clientP parv,
        lineCall .quiet u line.text = some (command, clientP, parv) →
        CommandMeets IssuesQuietly .quiet event.now clientP parv u command :=
      fun _ _ _ _ _ _ _ _ _ _ _ _ _ _ => trivial
    cases event with
    | read now fragment finish lines =>
        exact fun _ _ _ => meets_of_forall always _ _
    | _ => exact trivial

def oppedNext : Event :=
  .read 2 false .again [⟨":0AB TMODE 5 #b +o 0ABAAAAAA".toList, false⟩]

theorem hooksTell_voicedOnce :
    ∃ s, run (step .quiet) (start [] 300) voicedOnce = .ok s ∧
      (s.parsed 1 ["+o".toList, "0ABAAAAAA".toList]).chans.oppedList = [1] ∧
      ListsEmpty s.chans ∧
      HooksTell .quiet 2 1 ["+o".toList, "0ABAAAAAA".toList] s := by
  have observed : (run (step .quiet) (start [] 300) voicedOnce).toOption.map
      (fun s =>
        ((s.parsed 1 ["+o".toList, "0ABAAAAAA".toList]).chans.oppedList,
          (s.chans.channel.cell 1).isSome)) = some ([1], true) := by
    decide +kernel
  have received : ∀ event ∈ voicedOnce ++ [oppedNext],
      event.isService = false := by
    decide
  obtain ⟨s, reached, seen⟩ := Except.exists_of_observed observed
  obtain ⟨listed, there⟩ := Prod.mk.inj seen
  obtain ⟨empty, handled⟩ := hooksTell_of_run
    (meets_of_mem (fun event given _ => quiet_unissued (received event given))
      _) reached (.before oppedNext)
  exact ⟨s, reached, listed, empty, (handled 2 1 0 _ there).1⟩

/-- A service ops the member of the first channel, as `OMODE` does. -/
def oppedByOmode : List Event :=
  linkUp twoChannels ++
    [.service 2 (.issueMode 0 0 true ["+o".toList, "one".toList])]

/-- The list is not empty after it, and a message for the other channel passes
the member to `HOOK_CHANNEL_MODE_OP`, who was not opped there. -/
theorem not_hooksTell_oppedByOmode :
    ∃ s, run (step .quiet) (start [{ name := "OPERSERV".toList }] 300)
        oppedByOmode = .ok s ∧
      s.clients.isService 0 = true ∧
      (s.chans.channel.cell 1).isSome = true ∧
      ¬ListsEmpty s.chans ∧
      ¬HooksTell .quiet 3 1 ["+m".toList] s := by
  have observed : (run (step .quiet)
      (start [{ name := "OPERSERV".toList }] 300) oppedByOmode).toOption.map
      (fun s => (s.clients.isService 0, (s.chans.channel.cell 1).isSome,
        s.chans.oppedList, (s.parsed 1 ["+m".toList]).chans.oppedList,
        ((s.parsed 1 ["+m".toList]).chans.member.cell 0).map
          Chmember.chptr)) =
      some (true, true, [0], [0], some 0) := by
    decide +kernel
  obtain ⟨s, reached, seen⟩ := Except.exists_of_observed observed
  simp only [Prod.mk.injEq] at seen
  obtain ⟨service, there, left, passed, inFirst⟩ := seen
  refine ⟨s, reached, service, there, fun empty => ?_, fun tell => ?_⟩
  · rw [empty.opped] at left
    cases left
  · have listed : (0 : MemberId) ∈
        (s.parsed 1 ["+m".toList]).chans.oppedList := by
      rw [passed]
      exact List.mem_singleton.mpr rfl
    obtain ⟨⟨member, used, inSecond, _⟩, _⟩ := (tell.op.mem_iff 0).mp listed
    rw [used, Option.map_some, inSecond] at inFirst
    cases inFirst

end State

end RatboxServices
