import RatboxServices.Serv.BanCommand
import RatboxServices.Serv.EnforceRun

namespace RatboxServices

open CString
open Chans (Reseats StaysTidy SetsNew)

/-! That no mask is in a list of a channel twice, after any sequence of what is
done to the lists, and that a `BMASK` adds the masks that it should. -/

section Acts

variable {Fits : Chans → ChanAct → Prop} {now : Int} {s : Chans}

theorem meetsActs_append {first second : List ChanAct}
    (left : MeetsActs Fits now s first)
    (right : MeetsActs Fits now (ChanAct.execAll now first s) second) :
    MeetsActs Fits now s (first ++ second) := by
  induction first generalizing s with
  | nil => exact right
  | cons act first ih => exact ⟨left.1, ih left.2 right⟩

theorem meetsActs_inTurn {α : Type} {turn : α → Chans → List ChanAct}
    (each : ∀ value s, MeetsActs Fits now s (turn value s))
    (values : List α) : MeetsActs Fits now s
      (ChanAct.inTurn now turn values s) := by
  induction values generalizing s with
  | nil => exact trivial
  | cons value values ih =>
      rw [ChanAct.inTurn]
      exact meetsActs_append (each value s) ih

def ChanAct.setsBan : ChanAct → Bool
  | .addBan _ _ => true
  | _ => false

theorem setsNew_of_not_setsBan {act : ChanAct} (other : act.setsBan = false) :
    SetsNew s act := by
  cases act with
  | addBan chptr mask => cases other
  | _ => exact trivial

theorem meetsActs_of_not_setsBan {acts : List ChanAct}
    (others : ∀ act ∈ acts, act.setsBan = false) :
    MeetsActs SetsNew now s acts :=
  meetsActs_of_forall fun act among _ =>
    setsNew_of_not_setsBan (others act among)

theorem setsNew_of_lacksBan {t : Chans} {chptr : ChannelId} {mask : CString}
    (lacks : ChanServ.lacksBan s chptr mask = true) (step : Reseats s t) :
    SetsNew t (.addBan chptr mask) := by
  unfold ChanServ.lacksBan at lacks
  split at lacks
  · rename_i ch there
    intro after used
    obtain ⟨before, was, _, _, _, _, rfl⟩ :=
      step.kept chptr after (Heap.lt_next there) used
    rw [there, Option.some.injEq] at was
    subst was
    exact lacks_iff.mpr (by simpa using lacks)
  · cases lacks

end Acts

namespace ChanServ

variable {serv : ChanServ} {env base : Env} {now : Int} {clients : Clients}
  {target : ChanRegId} {reg : ChanReg} {chptr : ChannelId} {mptr : MemberId}
  {member : Chmember} {access : Option MemberReg} {s : Chans} {act : ChanAct}

theorem enableInhabit_setsBan {autojoin : Bool}
    (among : act ∈ serv.enableInhabit env now target chptr autojoin s) :
    act.setsBan = false := by
  unfold enableInhabit at among
  split at among
  · cases among
  · dsimp only at among
    rcases List.mem_cons.mp among with rfl | among
    · rfl
    · split at among
      · rw [List.mem_singleton.mp among]
        rfl
      · cases among

theorem inhabitIfAlone_setsBan
    (among : act ∈ serv.inhabitIfAlone env now target chptr s) :
    act.setsBan = false := by
  unfold inhabitIfAlone at among
  split at among
  · exact enableInhabit_setsBan among
  · cases among

theorem kickBanned_new {ban : BanReg} :
    MeetsActs SetsNew now s
      (serv.kickBanned env now target chptr mptr member ban s) := by
  unfold kickBanned
  refine meetsActs_append (meetsActs_append (meetsActs_append ?_ ?_) ?_) ?_
  · split
    · exact ⟨trivial, trivial⟩
    · exact trivial
  · have step : Reseats s (ChanAct.execAll now
        (if member.isOpped then [.deop mptr] else []) s) := by
      split
      · exact .restatus (.deop mptr)
      · exact .refl s
    cases lacks : lacksBan s chptr ban.mask with
    | true => exact ⟨setsNew_of_lacksBan lacks step, trivial⟩
    | false => exact trivial
  · exact meetsActs_of_not_setsBan fun _ among => inhabitIfAlone_setsBan among
  · exact ⟨trivial, trivial⟩

theorem welcome_setsBan {stage : Welcome}
    (among : act ∈ serv.welcome env now target reg chptr mptr member access
      stage s) : act.setsBan = false := by
  have single : ∀ {own : ChanAct}, own.setsBan = false → act ∈ [own] →
      act.setsBan = false := by
    intro own other only
    rw [List.mem_singleton.mp only]
    exact other
  unfold welcome at among
  split at among
  · split at among
    · rcases List.mem_append.mp among with first | last
      · exact inhabitIfAlone_setsBan first
      · exact single rfl last
    · cases among
  · split at among
    · rcases List.mem_append.mp among with first | last
      · exact inhabitIfAlone_setsBan first
      · exact single rfl last
    · split at among
      · exact enableInhabit_setsBan among
      · cases among
  · split at among
    · cases among
    · unfold grant at among
      split at among
      · cases among
      · split at among
        · exact single rfl among
        · split at among
          · exact single rfl among
          · cases among

theorem joinTurn_new : MeetsActs SetsNew now s
    (serv.joinTurn env now clients target reg chptr mptr s) := by
  unfold joinTurn
  split
  · dsimp only
    split
    · exact kickBanned_new
    · exact meetsActs_inTurn (fun _ _ =>
        meetsActs_of_not_setsBan fun _ among => welcome_setsBan among) _
  · exact trivial

theorem hChanservJoin_new {members : List MemberId} :
    MeetsActs SetsNew now s
      (serv.hChanservJoin env now clients s chptr members) := by
  unfold hChanservJoin
  split
  · exact trivial
  · exact meetsActs_inTurn (fun _ _ => joinTurn_new) members

theorem mem_map_setsBan {α : Type} {list : List α} {make : α → ChanAct}
    (others : ∀ value, (make value).setsBan = false)
    (among : act ∈ list.map make) : act.setsBan = false := by
  obtain ⟨value, -, rfl⟩ := List.mem_map.mp among
  exact others value

theorem hChanservModeOp_new {members : List MemberId} :
    MeetsActs SetsNew now s (serv.hChanservModeOp now s chptr members) := by
  apply meetsActs_of_not_setsBan
  intro act among
  unfold hChanservModeOp at among
  split at among
  · cases among
  · split at among
    · exact mem_map_setsBan (fun _ => rfl) among
    · split at among
      · exact mem_map_setsBan (fun _ => rfl) among
      · cases among

theorem hChanservModeVoice_new {members : List MemberId} :
    MeetsActs SetsNew now s
      (serv.hChanservModeVoice now s chptr members) := by
  apply meetsActs_of_not_setsBan
  intro act among
  unfold hChanservModeVoice at among
  split at among
  · cases among
  · split at among
    · exact mem_map_setsBan (fun _ => rfl) among
    · cases among

theorem hChanservModeSimple_new :
    MeetsActs SetsNew now s (serv.hChanservModeSimple now s chptr) := by
  unfold hChanservModeSimple
  split
  · exact trivial
  · exact ⟨trivial, trivial⟩

theorem hChanservModeBan_new {banlist : List CString} :
    MeetsActs SetsNew now s (serv.hChanservModeBan now s chptr banlist) := by
  apply meetsActs_of_not_setsBan
  intro act among
  unfold hChanservModeBan at among
  split at among
  · cases among
  · split at among
    · exact mem_map_setsBan (fun _ => rfl) among
    · cases among

theorem hooks_fit {clientP : ClientId} {parv : List CString} {state : State}
    (command : Command) (topics : command ≠ .topic ∧ command ≠ .tb) :
    State.HooksFit SetsNew (serv.env now base) now clientP parv state
      command := by
  have chmode : ∀ chptr parv, State.ChmodeFits SetsNew (serv.env now base) now
      chptr clientP parv state := fun _ _ =>
    { op := fun _ _ _ => hChanservModeOp_new
      voice := fun _ _ _ => hChanservModeVoice_new
      simple := fun _ _ _ => hChanservModeSimple_new
      ban := fun _ _ _ _ => hChanservModeBan_new }
  cases command with
  | mode => exact fun _ _ => chmode _ _
  | tmode => exact fun _ _ => chmode _ _
  | sjoin => exact fun _ _ => ⟨fun _ _ _ => trivial, hChanservJoin_new⟩
  | join => exact fun _ _ => ⟨fun _ _ _ => trivial, hChanservJoin_new⟩
  | topic => exact absurd rfl topics.1
  | tb => exact absurd rfl topics.2
  | _ => exact trivial

theorem addbanTurn_new {ban : BanReg} {reason : CString} :
    MeetsActs SetsNew now s
      (serv.addbanTurn env now clients target chptr ban reason mptr s) := by
  apply meetsActs_of_not_setsBan
  intro act among
  unfold addbanTurn at among
  split at among
  · rcases List.mem_append.mp among with among | kick
    · rcases List.mem_append.mp among with deop | inhabit
      · split at deop
        · rw [List.mem_singleton.mp deop]
          rfl
        · cases deop
      · exact inhabitIfAlone_setsBan inhabit
    · rw [List.mem_singleton.mp kick]
      rfl
  · cases among

theorem addbanActs_new {ban : BanReg} {reason : CString} :
    MeetsActs SetsNew now s
      (serv.addbanActs env now clients target chptr ban reason s) := by
  have turns : MeetsActs SetsNew now s (ChanAct.inTurn now
      (serv.addbanTurn env now clients target chptr ban reason)
      (s.usersOf chptr) s) :=
    meetsActs_inTurn (fun _ _ => addbanTurn_new) _
  unfold addbanActs
  split
  · dsimp only
    split
    · exact turns
    · rename_i sets
      rw [Bool.or_eq_true, not_or, Bool.not_eq_true', Bool.not_eq_false]
        at sets
      exact meetsActs_append turns
        ⟨setsNew_of_lacksBan sets.2 (.refl _), trivial⟩
  · exact trivial

theorem sChanAddban_tidy {conf : ServConfig} {client : ClientId}
    {parv : AddbanArgs} {state : State} :
    Ensures (StaysTidy state.chans)
      (serv.sChanAddban conf env now client parv state) := by
  unfold sChanAddban
  split
  · exact StaysTidy.refl _
  · dsimp only
    split
    · split
      · exact trivial
      · exact StaysTidy.refl _
    · split
      · exact State.tidy_admits.execAll addbanActs_new
      · exact StaysTidy.refl _

end ChanServ

/-- What is done to the lists of channels. Between it the services may act in
other ways and the clients may become any. -/
inductive MaskAct where
  | bmask (parv : List CString)
  | mode (clientP : ClientId) (parv : List CString)
  | tmode (clientP : ClientId) (parv : List CString)
  | sjoin (clientP : ClientId) (parv : List CString)
  | join (clientP : ClientId) (parv : List CString)
  | issueMode (serviceP : ClientId) (chptr : ChannelId) (allowSslonly : Bool)
      (parv : List CString)
  | addban (conf : ServConfig) (client : ClientId) (parv : AddbanArgs)
  | delban (client : ClientId) (chname mask : CString)
  | clearbans (client : ClientId) (chname : CString)
  | unban (client : ClientId) (chname : CString)
  | expireban
  | other (act : ChanAct) (plain : act.setsBan = false)
  | clients (clients : Clients)

structure MaskEvent where
  now : Int
  serv : ChanServ
  base : Env
  act : MaskAct

namespace State

def maskStep (s : State) (event : MaskEvent) : Except MaskStop State :=
  let now := event.now
  let serv := event.serv
  let env := serv.env now event.base
  match event.act with
  | .bmask parv => (s.cBmask env parv).mapError .net
  | .mode clientP parv => (s.cMode env now clientP parv).mapError .net
  | .tmode clientP parv => (s.cTmode env now clientP parv).mapError .net
  | .sjoin clientP parv => (s.cSjoin env now clientP parv).mapError .net
  | .join clientP parv => (s.cJoin env now clientP parv).mapError .net
  | .issueMode serviceP chptr allowSslonly parv =>
      .ok (s.onChans fun chans =>
        (parseFullMode (s.issuedCall serviceP chptr allowSslonly) parv
          chans).1)
  | .addban conf client parv => do
      let chans ← serv.sChanAddban conf env now client parv s
      .ok { s with chans := chans }
  | .delban client chname mask =>
      .ok (s.onChans (serv.sChanDelban now client chname mask))
  | .clearbans client chname =>
      .ok (s.onChans (serv.sChanClearbans now client chname))
  | .unban client chname => do
      let chans ← serv.sChanUnban env now client chname s
      .ok { s with chans := chans }
  | .expireban => .ok (s.onChans (serv.eChanservExpireban now))
  | .other act _ => .ok (s.onChans fun chans => act.exec now chans)
  | .clients clients => .ok { s with clients := clients }

variable {s t : State} {event : MaskEvent} {events : List MaskEvent}

theorem maskStep_tidy :
    Ensures (fun t => StaysTidy s.chans t.chans) (s.maskStep event) := by
  obtain ⟨now, serv, base, act⟩ := event
  cases act with
  | bmask parv => exact cBmask_tidy.mapError
  | mode clientP parv =>
      exact (tidy_admits.cMode
        (serv.hooks_fit .mode (by decide))).mapError
  | tmode clientP parv =>
      exact (tidy_admits.cTmode
        (serv.hooks_fit .tmode (by decide))).mapError
  | sjoin clientP parv =>
      exact (cSjoin_tidy (serv.hooks_fit .sjoin (by decide))).mapError
  | join clientP parv =>
      exact (cJoin_tidy (serv.hooks_fit .join (by decide))).mapError
  | issueMode serviceP chptr allowSslonly parv =>
      exact StaysTidy.parseFullMode _ parv
  | addban conf client parv =>
      exact Outcome.bind ChanServ.sChanAddban_tidy fun _ stays => stays
  | delban client chname mask => exact ChanServ.sChanDelban_tidy
  | clearbans client chname => exact ChanServ.sChanClearbans_tidy
  | unban client chname =>
      exact Outcome.bind ChanServ.sChanUnban_tidy fun _ stays => stays
  | expireban => exact ChanServ.eChanservExpireban_tidy
  | other act plain => exact StaysTidy.exec now (setsNew_of_not_setsBan plain)
  | clients clients => exact StaysTidy.refl _

theorem tidy_of_run (tidy : s.chans.Tidy)
    (reached : run maskStep s events = .ok t) : t.chans.Tidy :=
  run_preserves (fun state => state.chans.Tidy)
    (fun _ _ _ tidy stepped => tidy.stays (maskStep_tidy.of_ok stepped)) tidy
    reached

/-- Whatever is done to the lists from the start on, no mask is in a list
twice, and a `BMASK` whose TS is not above that of its channel adds exactly the
masks between its spaces that are new. -/
theorem masks_of_run {blocks : List ServiceBlock} {pingTime : Int}
    (reached : run maskStep (start blocks pingTime) events = .ok t) :
    t.chans.Tidy ∧
      ∀ env ts chname letter type masks rest chptr ch,
        t.chans.findChannel chname = some chptr →
        t.chans.channel.cell chptr = some ch → atol ts ≤ ch.tsinfo →
        ∃ u after,
          t.cBmask env (ts :: chname :: (letter :: type) :: masks :: rest) =
            .ok u ∧
          u.chans.channel.cell chptr = some after ∧
          BmaskAdds env.nickLen letter masks ch after ∧
          ∀ other, other ≠ chptr →
            u.chans.channel.cell other = t.chans.channel.cell other :=
  ⟨tidy_of_run Chans.tidy_empty reached,
    fun _ _ _ _ _ _ _ _ _ found there current =>
      cBmask_adds found there current⟩

def maskEvent (act : MaskAct) : MaskEvent where
  now := 9
  serv := strictChannel
  base := .quiet
  act := act

def maskEvents : List MaskEvent :=
  [maskEvent (.other (.join 0 "#a".toList 5 none false) rfl),
    maskEvent (.bmask ["5".toList, "#a".toList, "b".toList,
      "  A!*@*   a!*@* :x!*@* bad B!*@* ".toList]),
    maskEvent (.tmode 0 ["5".toList, "#a".toList, "+bbe".toList,
      "b!*@*".toList, "c!*@*".toList, "d!*@*".toList]),
    maskEvent .expireban]

theorem masks_of_run_twoSpellings :
    ∃ t ch, run maskStep (start [] 300) maskEvents = .ok t ∧
      t.chans.channel.cell 0 = some ch ∧
      ch.bans = ["c!*@*".toList, "B!*@*".toList, "A!*@*".toList] ∧
      t.chans.Tidy ∧
      ∃ u after,
        t.cBmask .quiet ["5".toList, "#a".toList, "e".toList,
            " D!*@*  f!*@* ".toList] = .ok u ∧
          u.chans.channel.cell 0 = some after ∧
          BmaskAdds Env.quiet.nickLen 'e' " D!*@*  f!*@* ".toList ch after := by
  have observed : (run maskStep (start [] 300) maskEvents).toOption.map
      (fun t => ((t.chans.channel.cell 0).map fun ch => (ch.bans, ch.tsinfo),
        t.chans.findChannel "#a".toList)) =
      some (some (["c!*@*".toList, "B!*@*".toList, "A!*@*".toList], 5),
        some 0) := by
    decide +kernel
  obtain ⟨t, reached, seen⟩ := Except.exists_of_observed observed
  obtain ⟨seen, found⟩ := Prod.mk.inj seen
  obtain ⟨ch, there, seen⟩ := Option.map_eq_some_iff.mp seen
  obtain ⟨bans, tsinfo⟩ := Prod.mk.inj seen
  obtain ⟨tidy, adds⟩ := masks_of_run reached
  obtain ⟨u, after, handled, used, added, -⟩ :=
    adds .quiet "5".toList "#a".toList 'e' [] " D!*@*  f!*@* ".toList [] 0 ch
      found there (by rw [tsinfo]; decide +kernel)
  exact ⟨t, ch, reached, there, bans, tidy, u, after, handled, used, added⟩

end State

end RatboxServices
