import RatboxServices.Net.ChannelPath

namespace RatboxServices

/-! The channel store along every run of the daemon. -/

namespace State

open Chans (Inv)

variable {env : Env} {Allowed : State → Hazard → Prop}
  {Chan : Chans → Chans → Prop}
  {Empty : ChannelId → Prop} {now : Int} {s t : State}

theorem exit_inv {target : ClientId} (inv : Inv Empty s.chans) :
    Ensures (fun t => Inv Empty t.chans) (s.exit env target) :=
  exit_chans (fun mptr _ inv => inv.delChmember mptr) inv

theorem signoffServer_inv (inv : Inv Empty s.chans) :
    Ensures (fun t => Inv Empty t.chans) (s.signoffServer env) :=
  signoffServer_chans (fun mptr _ inv => inv.delChmember mptr) inv

/-- A stranded channel is a channel that may be empty. -/
theorem Effect.inv (effect : Effect env Allowed Chan s t)
    (excused : ∀ s, Allowed s .strand → ∀ c, Empty c)
    (inv : Inv Empty s.chans) : Inv Empty t.chans := by
  cases effect with
  | chans moved kept => exact kept Empty inv
  | strand allowed moved kept =>
      exact (kept (inv.weaken fun _ _ => trivial)).weaken
        fun c _ => excused s allowed c
  | client benign => exact inv
  | counters firstKill numKill => exact inv
  | exit found exited => exact (exit_inv inv).of_ok exited
  | exitUplink allowed link uplink exited => exact (exit_inv inv).of_ok exited
  | linkUser new linked =>
      obtain ⟨leaf, _, rfl⟩ := linkUser_eq_ok linked
      exact inv
  | linkLeaf found new linked =>
      obtain ⟨leaf, _, rfl⟩ := linkLeaf_eq_ok linked
      exact inv
  | rename name found user => exact inv
  | revive before allowed found service => exact inv
  | link tame => exact inv
  | signoff before allowed signed =>
      exact (signoffServer_inv inv).of_ok signed
  | accept allowed link noUplink sid new => exact inv

def Calm (env : Env) (Empty : ChannelId → Prop) (s : State)
    (line : Incoming) : Prop :=
  lineHazard env s line.text = some .strand → ∀ c, Empty c

theorem readTurn_inv {line : Incoming} (calm : Calm env Empty s line)
    (inv : Inv Empty s.chans) :
    Ensures (fun t => Inv Empty t.chans) (readTurn env now s line) := by
  have effects : Ensures (Effects env (fun _ hazard => hazard = .strand →
      ∀ c, Empty c) (fun _ _ => True) s) (readLine env now s line.text) :=
    readLine_effects_true fun hazard next stranded => calm (stranded ▸ next)
  unfold readTurn
  refine Outcome.bind effects fun t effects => ?_
  have kept : Inv Empty t.chans :=
    effects.preserves (fun s t effect inv =>
      effect.inv (fun s allowed => allowed rfl) inv) inv
  show Inv Empty (State.chans _)
  split
  · exact kept
  · exact kept

theorem execService_inv {act : ServiceAct} (inv : Inv Empty s.chans) :
    Ensures (fun t => Inv Empty t.chans) (execService env now s act) := by
  have effects : Ensures (Effects env (fun _ _ => False) (fun _ _ => True) s)
      (execService env now s act) := execService_effects_true act
  refine Outcome.imp effects fun t effects => ?_
  exact effects.preserves (fun s t effect inv =>
    effect.inv (fun s impossible => impossible.elim) inv) inv

theorem step_inv {event : Event}
    (calm : MeetsLines env (Calm env Empty) s event)
    (inv : Inv Empty s.chans) :
    Ensures (fun t => Inv Empty t.chans) (s.step env event) := by
  refine step_chans (fun mptr _ inv => inv.delChmember mptr) ?_ ?_ inv
  · exact calm.mono fun u line calm inv => readTurn_inv calm inv
  · cases event with
    | service now act => exact fun inv => execService_inv inv
    | _ => exact trivial

/-- From the start, every run keeps the invariant as long as its lines strand
no channel that must not be empty. -/
theorem run_inv {blocks : List ServiceBlock} {pingTime : Int}
    {events : List Event}
    (calm : Meets (step env) (MeetsLines env (Calm env Empty))
      (start blocks pingTime) events)
    (reached : run (step env) (start blocks pingTime) events = .ok s) :
    Inv Empty s.chans :=
  run_preserves_of_meets (fun t => Inv Empty t.chans)
    (fun _ _ _ calm inv stepped => (step_inv calm inv).of_ok stepped)
    calm Inv.empty reached

/-- Whatever the lines strand, channels that may be empty are kept right. -/
theorem run_inv_true {blocks : List ServiceBlock} {pingTime : Int}
    {events : List Event}
    (reached : run (step env) (start blocks pingTime) events = .ok s) :
    Inv (fun _ => True) s.chans := by
  have calm : Meets (step env) (MeetsLines env (Calm env fun _ => True))
      (start blocks pingTime) events :=
    meets_of_forall (meetsLines_of_forall fun _ _ _ _ => trivial) _ _
  exact run_inv calm reached

end State

namespace Chans

/-- Each member is once in the users of its channel and once in the channels of
its user; nobody is in a channel twice; the opped and the unopped users are the
users, and the flags say which is which. -/
structure MembersAgree (s : Chans) : Prop where
  inChannel : ∀ m member, s.member.cell m = some member →
    ∃ ch, s.channel.cell member.chptr = some ch ∧ ch.users.count m = 1
  inUser : ∀ m member, s.member.cell m = some member →
    (s.userChannels member.clientP).count m = 1
  usersAre : ∀ c ch m, s.channel.cell c = some ch → m ∈ ch.users →
    ∃ member, s.member.cell m = some member ∧ member.chptr = c
  channelsAre : ∀ u m, m ∈ s.userChannels u →
    ∃ member, s.member.cell m = some member ∧ member.clientP = u
  unique : ∀ m n left right, s.member.cell m = some left →
    s.member.cell n = some right → left.chptr = right.chptr →
    left.clientP = right.clientP → m = n
  partition : ∀ c ch, s.channel.cell c = some ch →
    (ch.usersOpped ++ ch.usersUnopped).Perm ch.users
  opped : ∀ m member ch, s.member.cell m = some member →
    s.channel.cell member.chptr = some ch →
    (m ∈ ch.usersOpped ↔ member.flags.has modeOpped = true)
  flags : ∀ m member, s.member.cell m = some member →
    ¬(member.flags.has modeOpped = true ∧
      member.flags.has modeDeopped = true)

theorem Inv.partition {Empty : ChannelId → Prop} {s : Chans}
    (inv : Inv Empty s) {c : ChannelId} {ch : Channel}
    (used : s.channel.cell c = some ch) :
    (ch.usersOpped ++ ch.usersUnopped).Perm ch.users := by
  have users := inv.users c ch used
  have opped := inv.opped c ch used
  have unopped := inv.unopped c ch used
  have apart : ∀ m, s.member.Has (Chmember.OppedIn c) m →
      ¬s.member.Has (Chmember.UnoppedIn c) m := by
    rintro m ⟨member, found, _, isOpped⟩ ⟨same, again, _, notOpped⟩
    rw [found, Option.some.injEq] at again
    subst again
    rw [isOpped] at notOpped
    cases notOpped
  have both := opped.move unopped apart
  refine (List.perm_ext_iff_of_nodup both.nodup users.nodup).mpr fun m => ?_
  rw [both.mem_iff, users.mem_iff]
  constructor
  · rintro (⟨member, found, inside, _⟩ | ⟨member, found, inside, _⟩)
    · exact ⟨member, found, inside⟩
    · exact ⟨member, found, inside⟩
  · rintro ⟨member, found, inside⟩
    cases side : member.isOpped with
    | true => exact Or.inl ⟨member, found, inside, side⟩
    | false => exact Or.inr ⟨member, found, inside, side⟩

theorem Inv.membersAgree {Empty : ChannelId → Prop} {s : Chans}
    (inv : Inv Empty s) : MembersAgree s where
  inChannel := by
    intro m member found
    obtain ⟨ch, used⟩ := inv.owner m member found
    have users := inv.users member.chptr ch used
    refine ⟨ch, used, List.count_eq_one_of_mem users.nodup ?_⟩
    exact (users.mem_iff m).mpr ⟨member, found, rfl⟩
  inUser := by
    intro m member found
    have channels := inv.channels member.clientP
    refine List.count_eq_one_of_mem channels.nodup ?_
    exact (channels.mem_iff m).mpr ⟨member, found, rfl⟩
  usersAre := fun c ch m used listed =>
    ((inv.users c ch used).mem_iff m).mp listed
  channelsAre := fun u m listed => ((inv.channels u).mem_iff m).mp listed
  unique := inv.unique
  partition := fun c ch used => inv.partition used
  opped := by
    intro m member ch found used
    rw [(inv.opped _ ch used).mem_iff, Heap.has_iff found]
    simp [Chmember.OppedIn, Chmember.isOpped]
  flags := by
    rintro m member found ⟨opped, deopped⟩
    rw [inv.flags m member found opped] at deopped
    cases deopped

namespace MembersAgree

variable {s : Chans}

theorem mem_usersOf (agree : MembersAgree s) (c : ChannelId) (m : MemberId) :
    m ∈ s.usersOf c ↔ s.member.Has (fun member => member.chptr = c) m := by
  constructor
  · intro listed
    cases used : s.channel.cell c with
    | none => simp [usersOf, used] at listed
    | some ch =>
        simp only [usersOf, used] at listed
        exact agree.usersAre c ch m used listed
  · rintro ⟨member, found, rfl⟩
    obtain ⟨ch, used, once⟩ := agree.inChannel m member found
    simp only [usersOf, used]
    exact List.count_pos_iff.mp (by omega)

theorem seated (agree : MembersAgree s) : Seated s where
  users := agree.mem_usersOf
  channels := by
    intro u m
    constructor
    · exact agree.channelsAre u m
    · rintro ⟨member, found, rfl⟩
      have once := agree.inUser m member found
      exact List.count_pos_iff.mp (by omega)
  unique := agree.unique

/-- Both loops of `find_chmember` find the one member that links the channel
and the user, or none where none does, and so does the shorter one. -/
theorem scans_agree (agree : MembersAgree s) (c : ChannelId) (u : ClientId) :
    s.scanUsers c u = s.scanChannels c u ∧
      s.findChmember c u = s.scanUsers c u ∧
      TheOnly (s.Links c u) (s.findChmember c u) := by
  have users := agree.seated.scanUsers c u
  have channels := agree.seated.scanChannels c u
  have found := agree.seated.findChmember c u
  exact ⟨users.unique channels, found.unique users, found⟩

def sharedChannels : List Event :=
  linkUp
    [⟨":0AB UID one 1 5 +i u h 0 0ABAAAAAA :g".toList, false⟩,
      ⟨":0AB UID two 1 5 +i u h 0 0ABAAAAAB :g".toList, false⟩,
      ⟨":0AB SJOIN 5 #a +nt :@0ABAAAAAA +0ABAAAAAB".toList, false⟩,
      ⟨":0AB SJOIN 5 #b +nt :@0ABAAAAAB".toList, false⟩]

theorem scans_agree_sharedChannels :
    ∃ s : State,
      run (State.step .quiet) (State.start [] 300) sharedChannels = .ok s ∧
      TheOnly (s.chans.Links 0 1) (s.chans.scanChannels 0 1) ∧
      TheOnly (s.chans.Links 1 2) (s.chans.scanUsers 1 2) ∧
      s.chans.findChmember 0 1 = some 0 ∧
      s.chans.findChmember 1 2 = some 2 := by
  have observed : (run (State.step .quiet) (State.start [] 300)
      sharedChannels).toOption.map (fun s : State => (s.chans.findChmember 0 1,
        s.chans.findChmember 1 2)) = some (some 0, some 2) := by
    decide +kernel
  obtain ⟨s, reached, seen⟩ := Except.exists_of_observed observed
  have agree := (State.run_inv_true reached).membersAgree
  obtain ⟨same, shorter, first⟩ := scans_agree agree 0 1
  obtain ⟨_, other, second⟩ := scans_agree agree 1 2
  rw [shorter, same] at first
  rw [other] at second
  rw [Prod.mk.injEq] at seen
  exact ⟨s, reached, first, second, seen⟩

end MembersAgree

def NoneEmpty (s : Chans) : Prop :=
  ∀ c, c ∈ s.channelList ∨ (∃ hashv, c ∈ s.channelTable hashv) →
    ∃ ch, s.channel.cell c = some ch ∧ (ch.users ≠ [] ∨ ch.services ≠ [])

theorem Inv.noneEmpty {s : Chans} (inv : Inv (fun _ => False) s) :
    NoneEmpty s := by
  intro c present
  have used : ∃ ch, s.channel.cell c = some ch := by
    obtain listed | ⟨hashv, listed⟩ := present
    · obtain ⟨ch, used, _⟩ := (inv.list.mem_iff c).mp listed
      exact ⟨ch, used⟩
    · obtain ⟨ch, used, _⟩ := ((inv.table hashv).mem_iff c).mp listed
      exact ⟨ch, used⟩
  obtain ⟨ch, used⟩ := used
  exact ⟨ch, used, (inv.occupied c ch used).resolve_left id⟩

end Chans

namespace State

/-- The member lists agree in every state the daemon reaches. -/
theorem membersAgree_of_run (env : Env) (blocks : List ServiceBlock)
    (pingTime : Int) (events : List Event) (s : State)
    (reached : run (step env) (start blocks pingTime) events = .ok s) :
    s.chans.MembersAgree :=
  (run_inv_true reached).membersAgree

def opsAndVoices : List Event :=
  linkUp
    [⟨":0AB UID one 1 5 +i u h 0 0ABAAAAAA :g".toList, false⟩,
      ⟨":0AB UID two 1 5 +i u h 0 0ABAAAAAB :g".toList, false⟩,
      ⟨":0AB SJOIN 5 #a +nt :@0ABAAAAAA +0ABAAAAAB".toList, false⟩,
      ⟨":0ABAAAAAA MODE #a -o+o one two".toList, false⟩]

theorem membersAgree_opsAndVoices :
    ∃ s, run (step .quiet) (start [] 300) opsAndVoices = .ok s ∧
      s.chans.MembersAgree ∧
      (s.chans.channel.cell 0).map (fun ch =>
        (ch.users, ch.usersOpped, ch.usersUnopped)) =
          some ([1, 0], [1], [0]) := by
  have observed : (run (step .quiet) (start [] 300) opsAndVoices).toOption.map
      (fun s => (s.chans.channel.cell 0).map fun ch =>
        (ch.users, ch.usersOpped, ch.usersUnopped)) =
          some (some ([1, 0], [1], [0])) := by
    decide +kernel
  obtain ⟨s, reached, seen⟩ := Except.exists_of_observed observed
  exact ⟨s, reached, membersAgree_of_run .quiet [] 300 _ s reached, seen⟩

def LeavesNone (env : Env) (s : State) (line : Incoming) : Prop :=
  lineHazard env s line.text ≠ some .strand

instance (env : Env) (s : State) (line : Incoming) :
    Decidable (LeavesNone env s line) :=
  inferInstanceAs (Decidable (_ ≠ _))

/-- Without a line that strands its channel, no channel is ever empty. -/
theorem noneEmpty_of_run (env : Env) (blocks : List ServiceBlock)
    (pingTime : Int) (events : List Event) (s : State)
    (settled : Meets (step env) (MeetsLines env (LeavesNone env))
      (start blocks pingTime) events)
    (reached : run (step env) (start blocks pingTime) events = .ok s) :
    s.chans.NoneEmpty := by
  have calm : Meets (step env) (MeetsLines env (Calm env fun _ => False))
      (start blocks pingTime) events :=
    settled.mono fun s event lines => lines.mono fun s line leaves stranded =>
      absurd stranded leaves
  exact (run_inv calm reached).noneEmpty

theorem noneEmpty_opsAndVoices :
    ∃ s, run (step .quiet) (start [] 300) opsAndVoices = .ok s ∧
      s.chans.NoneEmpty ∧ s.chans.channelList = [0] := by
  have observed : (run (step .quiet) (start [] 300) opsAndVoices).toOption.map
      (fun s => s.chans.channelList) = some [0] := by
    decide +kernel
  have settled : Meets (step .quiet) (MeetsLines .quiet (LeavesNone .quiet))
      (start [] 300) opsAndVoices := by
    decide +kernel
  obtain ⟨s, reached, seen⟩ := Except.exists_of_observed observed
  exact ⟨s, reached, noneEmpty_of_run .quiet [] 300 _ s settled reached, seen⟩

/-- The only parameter after the modes of the `SJOIN` is their key. -/
def keyForNicks : List Event :=
  linkUp [⟨":0AB SJOIN 5 #a +k :key".toList, false⟩]

theorem not_noneEmpty_keyForNicks :
    ∃ s, run (step .quiet) (start [] 300) keyForNicks = .ok s ∧
      ¬s.chans.NoneEmpty := by
  have observed : (run (step .quiet) (start [] 300) keyForNicks).toOption.map
      (fun s => (s.chans.channelList, (s.chans.channel.cell 0).map fun ch =>
        (ch.users, ch.services))) = some ([0], some ([], [])) := by
    decide +kernel
  obtain ⟨s, reached, seen⟩ := Except.exists_of_observed observed
  refine ⟨s, reached, fun occupied => ?_⟩
  rw [Prod.mk.injEq, Option.map_eq_some_iff] at seen
  obtain ⟨listed, ch, used, lists⟩ := seen
  obtain ⟨same, again, someone⟩ := occupied 0 (Or.inl (by simp [listed]))
  rw [used, Option.some.injEq] at again
  subst again
  rw [Prod.mk.injEq] at lists
  obtain users | services := someone
  · exact users lists.1
  · exact services lists.2

end State

end RatboxServices
