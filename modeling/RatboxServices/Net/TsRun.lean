import RatboxServices.Net.ChannelEvolve

namespace RatboxServices

open Chans (Laws Evolves)

/-! The TS of a channel along every run in which no negative TS is received. -/

namespace Channel

def TsFalls (before after : Channel) : Prop :=
  0 ≤ before.tsinfo → 0 ≤ after.tsinfo ∧ after.tsinfo ≤ before.tsinfo

def TsValid (ch : Channel) : Prop :=
  0 ≤ ch.tsinfo

end Channel

open Channel (TsFalls TsValid)

def ChanAct.joinTs : ChanAct → Int
  | .join _ _ tsinfo _ _ => tsinfo
  | _ => 0

def ServiceAct.joinTs : ServiceAct → Int
  | .chan act => act.joinTs
  | _ => 0

def Event.joinTs : Event → Int
  | .service _ act => act.joinTs
  | _ => 0

def ChanAct.stamped (act : ChanAct) : Prop :=
  0 ≤ act.joinTs

theorem tsLaws {now : Int} (clock : 0 ≤ now) :
    Laws TsFalls TsValid (fun _ act => act.stamped) now where
  refl := fun _ valid => ⟨valid, Int.le_refl _⟩
  trans := by
    intro first second third earlier later valid
    obtain ⟨middle, left⟩ := earlier valid
    obtain ⟨last, right⟩ := later middle
    exact ⟨last, Int.le_trans right left⟩
  born := fun valid falls => (falls valid).1
  same := by
    intro ch after same valid
    rw [same.1]
    exact ⟨valid, Int.le_refl _⟩
  letter := fun _ valid => ⟨valid, Int.le_refl _⟩
  cleared := fun _ valid => ⟨valid, Int.le_refl _⟩
  takenOver := by
    intro ch bits enough _ _ _ valid
    show 0 ≤ ch.tsinfo - 1 ∧ ch.tsinfo - 1 ≤ ch.tsinfo
    omega
  reborn := by
    intro name tsinfo positive
    show 0 ≤ tsinfo
    omega
  enforce := fun _ _ valid => ⟨valid, Int.le_refl _⟩
  lowerts := fun _ _ _ valid => ⟨valid, Int.le_refl _⟩
  create := by
    intro s serviceP chname tsinfo mode override stamped _ name
    show 0 ≤ if tsinfo = 0 then now else tsinfo
    have given : 0 ≤ tsinfo := stamped
    split
    · exact clock
    · exact given
  override := by
    intro s serviceP chname tsinfo mode chptr ch stamped _ _ lower valid
    have given : 0 ≤ tsinfo := stamped
    exact ⟨given, Int.le_of_lt lower⟩

def Chans.AllValid (s : Chans) : Prop :=
  ∀ c ch, s.channel.cell c = some ch → TsValid ch

theorem Chans.AllValid.evolve {s t : Chans} (valid : s.AllValid)
    (falls : Evolves TsFalls TsValid s t) : t.AllValid := fun _ _ used =>
  falls.forall_of_forall (fun _ _ fall valid => (fall valid).1)
    (fun _ valid => valid) valid used

namespace State

theorem targetFits_of_stamped {target : JoinTarget}
    (stamped : 0 ≤ target.newts) : TargetFits TsFalls TsValid target where
  born := fun _ => stamped
  zero := fun _ _ valid => ⟨Int.le_refl _, valid⟩
  lower := fun _ lower _ => ⟨stamped, Int.le_of_lt lower⟩

/-- Where no channel has a negative TS the services join channels with the TS
of a channel, of a registration or of the clock, none of which is negative. -/
structure ServicesStamped (env : Env) : Prop where
  join : ∀ s : State, s.chans.AllValid → ∀ chptr joined,
    ∀ act ∈ env.hooks.channelJoin s chptr joined, act.stamped
  op : ∀ s : State, s.chans.AllValid → ∀ chptr opped,
    ∀ act ∈ env.hooks.modeOp s chptr opped, act.stamped
  voice : ∀ s : State, s.chans.AllValid → ∀ chptr voiced,
    ∀ act ∈ env.hooks.modeVoice s chptr voiced, act.stamped
  simple : ∀ s : State, s.chans.AllValid → ∀ chptr,
    ∀ act ∈ env.hooks.modeSimple s chptr, act.stamped
  ban : ∀ s : State, s.chans.AllValid → ∀ chptr bans,
    ∀ act ∈ env.hooks.modeBan s chptr bans, act.stamped
  topic : ∀ s : State, s.chans.AllValid → ∀ chptr,
    ∀ act ∈ env.hooks.channelTopic s chptr, act.stamped
  command : ∀ s : State, s.chans.AllValid → ∀ serviceP clientP text args act,
    ServiceAct.chan act ∈ (env.runCommand s serviceP clientP text args).1 →
      act.stamped

def lineTs (env : Env) (s : State) (line : Incoming) : Int :=
  match lineCall env s line.text with
  | some (.sjoin, _, parv) => (joinTarget parv).newts
  | some (.join, _, parv) => (joinTarget parv).newts
  | _ => 0

structure Stamped (env : Env) (s : State) (event : Event) : Prop where
  clock : 0 ≤ event.now
  act : 0 ≤ event.joinTs
  lines : MeetsLines env (fun s line => 0 ≤ lineTs env s line) s event

instance (env : Env) (s : State) (event : Event) :
    Decidable (Stamped env s event) :=
  decidable_of_iff (0 ≤ event.now ∧ 0 ≤ event.joinTs ∧
      MeetsLines env (fun s line => 0 ≤ lineTs env s line) s event)
    ⟨fun ⟨clock, act, lines⟩ => ⟨clock, act, lines⟩,
      fun stamped => ⟨stamped.clock, stamped.act, stamped.lines⟩⟩

section Stamped

variable {env : Env} {now : Int} {s t : State}

theorem meetsActs_of_stamped {acts : List ChanAct} {chans : Chans}
    (stamped : ∀ act ∈ acts, act.stamped) :
    MeetsActs (fun _ act => act.stamped) now chans acts :=
  meetsActs_of_forall fun act given _ => stamped act given

section Services

variable (services : ServicesStamped env) (clock : 0 ≤ now)
  (valid : s.chans.AllValid)

include clock valid

theorem callHook_valid {called : Bool} {acts : List ChanAct}
    (stamped : ∀ act ∈ acts, act.stamped) :
    (s.callHook now called acts).chans.AllValid :=
  valid.evolve ((admits (tsLaws clock)).callHook fun _ =>
    meetsActs_of_stamped stamped)

include services

theorem chmodeFits_of_stamped {chptr sourceP : ClientId}
    {parv : List CString} :
    ChmodeFits (fun _ act => act.stamped) env now chptr sourceP parv s := by
  have parsed : (s.parsed chptr parv).chans.AllValid :=
    valid.evolve ((admits (tsLaws clock)).modes _ parv s.chans)
  have op := services.op _ parsed chptr (s.parsed chptr parv).chans.oppedList
  have opped : (s.beforeVoice env now chptr parv).chans.AllValid :=
    callHook_valid clock parsed op
  have voice := services.voice _ opped chptr
    (s.beforeVoice env now chptr parv).chans.voicedList
  have voiced : (s.beforeSimple env now chptr parv).chans.AllValid :=
    callHook_valid clock opped voice
  have simple := services.simple _ voiced chptr
  have set : (s.beforeBan env now chptr parv).chans.AllValid :=
    callHook_valid clock voiced simple
  refine ⟨?_, ?_, ?_, ?_⟩
  · rintro _ rfl _
    exact meetsActs_of_stamped op
  · rintro _ rfl _
    exact meetsActs_of_stamped voice
  · rintro _ rfl _
    exact meetsActs_of_stamped simple
  · rintro _ rfl _ _
    exact meetsActs_of_stamped (services.ban _ set chptr _)

theorem topicFits_of_stamped {chptr : ChannelId} :
    TopicFits (fun _ act => act.stamped) env now chptr s := by
  rintro _ change dressing rfl
  exact meetsActs_of_stamped (services.topic _ (valid.evolve
    ((closed_of_laws (tsLaws clock)).dress chptr s.chans dressing)) chptr)

theorem sjoinHooks_of_stamped {call : SjoinCall}
    (stamped : 0 ≤ call.target.newts) :
    call.HooksFit s (fun _ act => act.stamped) env now := by
  have laws := tsLaws clock
  have start := targetFits_of_stamped stamped
  have lowerts : LowertsFits (fun _ act => act.stamped) env
      (call.target.chptr s) (call.target.keepOld s) (call.merged s) :=
    fun _ _ _ => Int.le_refl 0
  have lowered := (found_evolves laws start).trans laws
    (sjoinLowered_evolves laws start
      (fun _ ch _ valid => ⟨valid, Int.le_refl _⟩) lowerts)
  have entered := lowered.trans laws
    (.of_reseats laws (entered_reseats call s env))
  exact ⟨lowerts,
    meetsActs_of_stamped (services.join _ (valid.evolve entered) _ _)⟩

theorem joinHooks_of_stamped {target : JoinTarget} (clientP : ClientId)
    (stamped : 0 ≤ target.newts) :
    target.HooksFit s (fun _ act => act.stamped) env now clientP := by
  have laws := tsLaws clock
  have start := targetFits_of_stamped stamped
  have lowerts : LowertsFits (fun _ act => act.stamped) env (target.chptr s)
      (target.keepOld s) (target.settled s false) := fun _ _ _ => Int.le_refl 0
  have lowered := (found_evolves laws start).trans laws
    (joinLowered_evolves laws start lowerts)
  have entered := lowered.trans laws
    (.of_reseats laws (joinEntered_reseats target s env clientP))
  exact ⟨lowerts,
    meetsActs_of_stamped (services.join _ (valid.evolve entered) _ _)⟩

theorem servicesSuit_of_stamped {clientP : ClientId} {parv : List CString}
    {command : Command} (stamped : command = .sjoin ∨ command = .join →
      0 ≤ (joinTarget parv).newts) :
    ServicesSuit (fun _ act => act.stamped) env now clientP parv s
      command where
  hooks := by
    cases command with
    | mode => exact fun _ _ => chmodeFits_of_stamped services clock valid
    | tmode => exact fun _ _ => chmodeFits_of_stamped services clock valid
    | topic => exact fun _ _ => topicFits_of_stamped services clock valid
    | tb => exact fun _ _ => topicFits_of_stamped services clock valid
    | sjoin =>
        intro call read
        exact sjoinHooks_of_stamped services clock valid
          (sjoinCall_target read ▸ stamped (.inl rfl))
    | join =>
        intro target read
        exact joinHooks_of_stamped services clock valid clientP
          (joinCall_target read ▸ stamped (.inr rfl))
    | _ => exact trivial
  command := by
    rintro serviceP text args _ user service _ rfl
    have closed := closed_of_laws (tsLaws clock)
    have effects : Effects env (fun _ _ => True) (Evolves TsFalls TsValid) s
        (s.floodLimit env now serviceP clientP user service text).1 :=
      floodLimit_effects s user service text
    have limited := valid.evolve (effects.preserves
      (P := fun t => Evolves TsFalls TsValid s.chans t.chans)
      (fun _ _ effect => effect.moved closed) (closed.refl _))
    refine meets_of_mem (fun act given s => ?_) _
    cases act with
    | chan act => exact services.command _ limited _ _ _ _ act given
    | _ => exact trivial

theorem lineSuits_of_stamped {line : Incoming}
    (stamped : 0 ≤ lineTs env s line) :
    LineSuits TsFalls TsValid (fun _ act => act.stamped) env now s line where
  joins := by
    intro command clientP parv called
    unfold lineTs at stamped
    rw [called] at stamped
    cases command with
    | sjoin =>
        exact ⟨targetFits_of_stamped stamped,
          fun call _ _ ch _ valid => ⟨valid, Int.le_refl _⟩⟩
    | join => exact targetFits_of_stamped stamped
    | _ => exact trivial
  services := by
    intro command clientP parv called
    unfold lineTs at stamped
    rw [called] at stamped
    refine servicesSuit_of_stamped services clock valid ?_
    rintro (rfl | rfl)
    · exact stamped
    · exact stamped

end Services

theorem eventSuits_of_stamped (services : ServicesStamped env)
    {event : Event} (stamped : Stamped env s event)
    (valid : s.chans.AllValid) :
    EventSuits TsFalls TsValid (fun _ act => act.stamped) env s event where
  laws := tsLaws stamped.clock
  act := by
    have stamp := stamped.act
    cases event with
    | service now act =>
        cases act with
        | chan act => exact stamp
        | _ => exact trivial
    | _ => exact trivial
  lines := by
    cases event with
    | read now fragment finish lines =>
        intro reading after first
        have laws := tsLaws stamped.clock
        have closed := closed_of_laws laws
        have begun : after.chans.AllValid := (readAny_chans
          (fun mptr u kept => kept.evolve (closed.leave mptr u))
          valid).of_ok first
        refine (stamped.lines reading after first).carry
          (fun u => u.chans.AllValid) (fun u line valid stamp =>
            lineSuits_of_stamped services stamped.clock valid stamp) ?_ begun
        intro u line t suits valid turned
        exact valid.evolve ((readTurn_moved closed
          (lineFits_of_suits laws suits) (closed.refl _)).of_ok turned)
    | _ => exact trivial

theorem suits_of_stamped (services : ServicesStamped env)
    {events : List Event} (stamped : Meets (step env) (Stamped env) s events)
    (valid : s.chans.AllValid) :
    Meets (step env)
      (EventSuits TsFalls TsValid (fun _ act => act.stamped) env) s events := by
  refine stamped.carry (fun u => u.chans.AllValid) (fun u event valid stamp =>
    eventSuits_of_stamped services stamp valid) ?_ valid
  intro u event t suits valid stepped
  exact valid.evolve ((step_moved (closed_of_laws suits.laws)
    (eventFits_of_suits suits)).of_ok stepped)

theorem found_zero {target : JoinTarget} (zero : target.newts = 0)
    {ch : Channel}
    (used : (target.found s).chans.channel.cell (target.chptr s) = some ch) :
    ch.tsinfo = 0 := by
  unfold JoinTarget.found JoinTarget.chptr joinChannel at used
  cases found : s.chans.findChannel target.chname with
  | none =>
      rw [found] at used
      simp only [Chans.createChannel, Chans.addChannel, Chans.onBucket,
        Heap.alloc_cell_next, Option.some.injEq] at used
      subst used
      exact zero
  | some chptr =>
      rw [found] at used
      simp only [zero, decide_true, Bool.true_or, if_true] at used
      obtain ⟨before, _, rfl⟩ := Heap.cell_of_modify used
      rw [if_pos rfl]

theorem zero_of_falls {target : JoinTarget} (zero : target.newts = 0)
    {chans : Chans} (falls : Evolves TsFalls TsValid (target.found s).chans
      chans) (known : target.chptr s < (target.found s).chans.channel.next)
    {ch : Channel} (used : chans.channel.cell (target.chptr s) = some ch) :
    ch.tsinfo = 0 := by
  obtain ⟨before, there, fall⟩ := falls.kept _ _ known used
  have start := found_zero zero there
  obtain ⟨low, high⟩ := fall (by omega)
  omega

theorem chptr_lt_next (target : JoinTarget) :
    target.chptr s < (target.found s).chans.channel.next := by
  unfold JoinTarget.found JoinTarget.chptr joinChannel
  cases found : s.chans.findChannel target.chname with
  | none => exact Nat.lt_succ_self _
  | some chptr =>
      obtain ⟨ch, used⟩ :=
        Option.isSome_iff_exists.mp (Chans.findChannel_isSome found)
      have bound : chptr < s.chans.channel.next := Heap.lt_next used
      dsimp only
      split
      · exact bound
      · exact bound

theorem cSjoin_zero (services : ServicesStamped env) (clock : 0 ≤ now)
    (valid : s.chans.AllValid) {clientP : ClientId} {parv : List CString}
    (heard : sjoinHeard parv = true) (zero : (joinTarget parv).newts = 0)
    (handled : s.cSjoin env now clientP parv = .ok t) {ch : Channel}
    (used : t.chans.channel.cell ((joinTarget parv).chptr s) = some ch) :
    ch.tsinfo = 0 := by
  have known := chptr_lt_next (s := s) (joinTarget parv)
  cases read : s.sjoinCall clientP parv with
  | some call =>
      rw [cSjoin_of_call read] at handled
      cases handled
      have target := sjoinCall_target read
      rw [← target] at zero known used
      refine zero_of_falls zero (sjoin_evolves (tsLaws clock)
        (targetFits_of_stamped (by omega)) ?_ (sjoinHooks_of_stamped services
          clock valid (by omega))) known used
      exact fun _ ch _ valid => ⟨valid, Int.le_refl _⟩
  | none =>
      obtain ⟨unheard, _⟩ | ⟨_, rfl⟩ := (cSjoin_of_none read).of_ok handled
      · rw [heard] at unheard
        cases unheard
      · exact found_zero zero used

theorem cJoin_zero (services : ServicesStamped env) (clock : 0 ≤ now)
    (valid : s.chans.AllValid) {clientP : ClientId} {parv : List CString}
    (heard : s.joinHeard clientP parv = true)
    (zero : (joinTarget parv).newts = 0)
    (handled : s.cJoin env now clientP parv = .ok t) {ch : Channel}
    (used : t.chans.channel.cell ((joinTarget parv).chptr s) = some ch) :
    ch.tsinfo = 0 := by
  have known := chptr_lt_next (s := s) (joinTarget parv)
  obtain ⟨unheard, _⟩ | ⟨_, rfl⟩ | ⟨target, read, rfl⟩ :=
    cJoin_cases.of_ok handled
  · rw [heard] at unheard
    cases unheard
  · exact found_zero zero used
  · have named := joinCall_target read
    rw [← named] at zero known used
    exact zero_of_falls zero (join_evolves (tsLaws clock)
      (targetFits_of_stamped (by omega)) (joinHooks_of_stamped services clock
        valid clientP (by omega))) known used

/-- What an `SJOIN` with a higher TS may have done: the channel has what it
had, members are what they were, and new ones have no status. -/
structure Joined (chptr : ChannelId) (s u : Chans) : Prop where
  channel : ∀ ch, s.channel.cell chptr = some ch →
    ∃ after, u.channel.cell chptr = some after ∧ after.tsinfo = ch.tsinfo ∧
      after.mode = ch.mode ∧ after.bans = ch.bans ∧
      after.excepts = ch.excepts ∧ after.invites = ch.invites
  kept : ∀ m member, s.member.cell m = some member →
    u.member.cell m = some member
  new : ∀ m member, s.member.cell m = none →
    u.member.cell m = some member →
    member.isOpped = false ∧ member.isVoiced = false

theorem Joined.refl (chptr : ChannelId) (s : Chans) : Joined chptr s s where
  channel := fun ch used => ⟨ch, used, rfl, rfl, rfl, rfl, rfl⟩
  kept := fun _ _ used => used
  new := by
    intro m member free used
    rw [free] at used
    cases used

theorem Joined.addChmember {chptr : ChannelId} {s u : Chans}
    (joined : Joined chptr s u) {targetP : ClientId} {flags : Word}
    (plain : flags.has modeOpped = false ∧ flags.has modeVoiced = false) :
    Joined chptr s (u.addChmember chptr targetP flags).1 := by
  rw [Chans.Inv.addChmember_eq]
  refine ⟨?_, ?_, ?_⟩
  · intro ch used
    obtain ⟨after, there, tsinfo, mode, bans, excepts, invites⟩ :=
      joined.channel ch used
    refine ⟨_, Heap.modify_of_cell there, ?_⟩
    rw [if_pos rfl, Chans.Inv.enlist, plain.1]
    exact ⟨tsinfo, mode, bans, excepts, invites⟩
  · exact fun m member used =>
      Heap.alloc_cell_of_used (joined.kept m member used)
  · intro m member free used
    rw [Heap.alloc_cell] at used
    split at used
    · cases used
      exact plain
    · exact joined.new m member free used

theorem memberFlags_plain (opped voiced : Bool) :
    (memberFlags false opped voiced).has modeOpped = false ∧
      (memberFlags false opped voiced).has modeVoiced = false := by
  revert opped voiced
  decide

theorem Joined.sjoinNicks {chptr : ChannelId} {s : Chans}
    {findUser : CString → Option ClientId} (tokens : List CString)
    {state : Chans × List MemberId} (joined : Joined chptr s state.1) :
    Joined chptr s
      (tokens.foldl (sjoinNick findUser chptr false) state).1 := by
  induction tokens generalizing state with
  | nil => exact joined
  | cons token rest ih =>
      refine ih ?_
      unfold sjoinNick
      obtain ⟨opped, voiced, nick⟩ := nickPrefix token
      dsimp only
      split
      · exact joined
      · split
        · exact joined
        · exact joined.addChmember (memberFlags_plain opped voiced)

theorem cSjoin_higher {clientP : ClientId} {parv : List CString}
    {chptr : ChannelId} {ch : Channel}
    (found : s.chans.findChannel (joinTarget parv).chname = some chptr)
    (used : s.chans.channel.cell chptr = some ch) (nonzero : ch.tsinfo ≠ 0)
    (stamped : 0 ≤ ch.tsinfo) (higher : ch.tsinfo < (joinTarget parv).newts)
    (handled : s.cSjoin env now clientP parv = .ok t) :
    ∃ chans members, Joined chptr s.chans chans ∧
      (t.chans = chans ∨ t.chans = chans.freeChannel chptr ∨
        t = { s with chans := chans }.joinHook env now chptr members) := by
  have same : joinChannel (joinTarget parv).chname (joinTarget parv).newts
      s.chans = (s.chans, chptr, true) := by
    have some_ : (joinTarget parv).newts ≠ 0 := by omega
    have notLower : ¬(joinTarget parv).newts < ch.tsinfo := by omega
    simp [joinChannel, found, Heap.get_eq used, some_, nonzero, notLower]
  have noNew : keepNewModes (joinTarget parv).chname (joinTarget parv).newts
      s.chans = false := by
    have some_ : (joinTarget parv).newts ≠ 0 := by omega
    have notLower : ¬(joinTarget parv).newts < ch.tsinfo := by omega
    simp [keepNewModes, found, Heap.get_eq used, some_, nonzero, notLower,
      higher]
  have unmoved : (joinTarget parv).found s = s := by
    rw [JoinTarget.found, same]
  cases read : s.sjoinCall clientP parv with
  | none =>
      obtain ⟨_, rfl⟩ | ⟨_, rfl⟩ := (cSjoin_of_none read).of_ok handled
      · exact ⟨_, [], Joined.refl chptr _, Or.inl rfl⟩
      · rw [unmoved]
        exact ⟨_, [], Joined.refl chptr _, Or.inl rfl⟩
  | some call =>
      have target := sjoinCall_target read
      have here : call.target.chptr s = chptr := by
        rw [target, JoinTarget.chptr, same]
      have old : call.target.keepOld s = true := by
        rw [target, JoinTarget.keepOld, same]
      have new : call.target.keepNew s = false := by
        rw [target, JoinTarget.keepNew, noNew]
      have lowered : call.lowered s env = s := by
        rw [SjoinCall.lowered, SjoinCall.merged, JoinTarget.settled, old, new,
          target, unmoved]
        rfl
      have entered : Joined chptr s.chans (call.entered s env).1 := by
        rw [SjoinCall.entered, lowered, here, new]
        exact Joined.sjoinNicks _ (Joined.refl chptr s.chans)
      rw [cSjoin_of_call read, SjoinCall.apply_eq, lowered, here] at handled
      split at handled
      · cases handled
        exact ⟨_, [], Joined.refl chptr _, Or.inl rfl⟩
      · split at handled
        · cases handled
          exact ⟨_, [], entered, Or.inr (Or.inl rfl)⟩
        · cases handled
          exact ⟨_, _, entered, Or.inr (Or.inr rfl)⟩

theorem start_suits {blocks : List ServiceBlock} {pingTime : Int}
    (services : ServicesStamped env) {events : List Event}
    (stamped : Meets (step env) (Stamped env) (start blocks pingTime) events) :
    Meets (step env) (EventSuits TsFalls TsValid (fun _ act => act.stamped)
      env) (start blocks pingTime) events :=
  suits_of_stamped services stamped fun _ _ impossible => by cases impossible

theorem tsValid_of_moment {blocks : List ServiceBlock} {pingTime : Int}
    {earlier : List Event} {event : Event} {later : List Event}
    {middle u : State}
    (suits : Meets (step env) (EventSuits TsFalls TsValid
      (fun _ act => act.stamped) env) (start blocks pingTime)
        (earlier ++ event :: later))
    (between : run (step env) (start blocks pingTime) earlier = .ok middle)
    (moment : Moment env middle event u) : u.chans.AllValid := by
  have laws := tsLaws (Int.le_refl 0)
  have first : Evolves TsFalls TsValid (start blocks pingTime).chans
      middle.chans := run_evolves laws suits.left between
  have second : Evolves TsFalls TsValid middle.chans u.chans :=
    moved_moment (closed_of_laws laws)
      (eventFits_of_suits (suits.after between).1) moment
  have begun : (start blocks pingTime).chans.AllValid :=
    fun _ _ impossible => by cases impossible
  exact begun.evolve (first.trans laws second)

/-- Along every run in which no negative TS is received, the TS of a channel
does not rise as long as the channel is there, it is zero from the first
message with a TS of zero on, and an `SJOIN` with a higher TS adds members
without status and changes nothing else. -/
theorem tsinfo_never_rises {blocks : List ServiceBlock} {pingTime : Int}
    {earlier : List Event} {event : Event} {later : List Event}
    {middle u final : State} (services : ServicesStamped env)
    (stamped : Meets (step env) (Stamped env) (start blocks pingTime)
      (earlier ++ event :: later))
    (between : run (step env) (start blocks pingTime) earlier = .ok middle)
    (moment : Moment env middle event u)
    (reached : run (step env) middle (event :: later) = .ok final) :
    (∀ c before after, u.chans.channel.cell c = some before →
      final.chans.channel.cell c = some after →
      0 ≤ after.tsinfo ∧ after.tsinfo ≤ before.tsinfo) ∧
    (∀ clock clientP parv t, 0 ≤ clock → (joinTarget parv).newts = 0 →
      (sjoinHeard parv = true ∧ u.cSjoin env clock clientP parv = .ok t ∨
        u.joinHeard clientP parv = true ∧
          u.cJoin env clock clientP parv = .ok t) →
      ∀ ch, t.chans.channel.cell ((joinTarget parv).chptr u) = some ch →
        ch.tsinfo = 0) ∧
    (∀ clock clientP parv chptr ch t,
      u.chans.findChannel (joinTarget parv).chname = some chptr →
      u.chans.channel.cell chptr = some ch → ch.tsinfo ≠ 0 →
      ch.tsinfo < (joinTarget parv).newts →
      u.cSjoin env clock clientP parv = .ok t →
      ∃ chans members, Joined chptr u.chans chans ∧
        (t.chans = chans ∨ t.chans = chans.freeChannel chptr ∨
          t = { u with chans := chans }.joinHook env clock chptr
            members)) := by
  have suits := start_suits services stamped
  have valid : u.chans.AllValid := tsValid_of_moment suits between moment
  refine ⟨?_, ?_, ?_⟩
  · intro c before after there still
    have falls : Evolves TsFalls TsValid u.chans final.chans :=
      run_moved_from (closed_of_laws (tsLaws (Int.le_refl 0)))
        ((suits.after between).mono fun _ _ => eventFits_of_suits)
        moment reached
    obtain ⟨old, same, fall⟩ := falls.kept c after (Heap.lt_next there) still
    rw [there, Option.some.injEq] at same
    subst same
    exact fall (valid c before there)
  · rintro clock clientP parv t tick zero (⟨heard, handled⟩ | ⟨heard, handled⟩)
      ch used
    · exact cSjoin_zero services tick valid heard zero handled used
    · exact cJoin_zero services tick valid heard zero handled used
  · intro clock clientP parv chptr ch t found used nonzero higher handled
    exact cSjoin_higher found used nonzero (valid chptr ch used) higher handled

def tsAhead : List Event :=
  linkUp
    [⟨":0AB UID one 1 5 +i u h 0 0ABAAAAAA :g".toList, false⟩,
      ⟨":0AB SJOIN 100 #a +nt :@0ABAAAAAA".toList, false⟩]

def tsBehind : Event :=
  .read 2 false .again [⟨":0AB SJOIN 50 #a +s :@0ABAAAAAA".toList, false⟩]

theorem quiet_servicesStamped : ServicesStamped .quiet := by
  refine ⟨?_, ?_, ?_, ?_, ?_, ?_, ?_⟩ <;> intros <;> simp_all [Env.quiet]

theorem tsinfo_never_rises_tsBehind :
    ∃ middle final,
      run (step .quiet) (start [] 300) tsAhead = .ok middle ∧
      run (step .quiet) middle [tsBehind] = .ok final ∧
      (middle.chans.channel.cell 0).map Channel.tsinfo = some 100 ∧
      (final.chans.channel.cell 0).map Channel.tsinfo = some 50 ∧
      (∀ c before after, middle.chans.channel.cell c = some before →
        final.chans.channel.cell c = some after →
        0 ≤ after.tsinfo ∧ after.tsinfo ≤ before.tsinfo) := by
  have first : (run (step .quiet) (start [] 300) tsAhead).toOption.map
      (fun s => (s.chans.channel.cell 0).map Channel.tsinfo) =
        some (some 100) := by
    decide +kernel
  have second : (run (step .quiet) (start [] 300)
      (tsAhead ++ [tsBehind])).toOption.map
      (fun s => (s.chans.channel.cell 0).map Channel.tsinfo) =
        some (some 50) := by
    decide +kernel
  have stamped : Meets (step .quiet) (Stamped .quiet) (start [] 300)
      (tsAhead ++ [tsBehind]) := by
    decide +kernel
  obtain ⟨final, whole, behind⟩ := Except.exists_of_observed second
  obtain ⟨middle, between, reached⟩ := run_append_eq_ok.mp whole
  rw [between] at first
  refine ⟨middle, final, between, reached, Option.some.inj first, behind, ?_⟩
  exact (tsinfo_never_rises quiet_servicesStamped stamped between
    (.before tsBehind) reached).1

end Stamped

end State

end RatboxServices
